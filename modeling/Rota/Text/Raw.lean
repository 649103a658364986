import Rota.Text.Utf8

/-!
# Raw text

Programs read and write bytes.  A raw text is a list of bytes, each written as the character of the
same number, so that a byte of ASCII is its own character.

* `Raw`                         raw texts;
* `raw`                         the bytes of a text in UTF-8;
* `Raw.text`                    the text that raw bytes stand for;
* `Raw.joined`, `Raw.splitOn`   many texts and one text with something between them.
-/

namespace Rota.Text

/-- bytes, each one as the character of its number -/
abbrev Raw := List Char

namespace Raw

def ofByte (b : UInt8) : Char := Char.ofNat b.toNat

def toByte (c : Char) : UInt8 := UInt8.ofNat c.toNat

def bytes (r : Raw) : List UInt8 := r.map toByte

def text (r : Raw) : String := String.ofList (Utf8.lossy r.bytes)

def ofNat (n : Nat) : Char := Char.ofNat (n % 256)

def joined (between : Raw) : List Raw → Raw
  | [] => []
  | [r] => r
  | r :: s :: rs => r ++ between ++ joined between (s :: rs)

def upTo (p : Char → Bool) (r : Raw) : Raw × Raw :=
  (r.takeWhile fun c => !p c, r.dropWhile fun c => !p c)

def splitOn (c : Char) : Raw → List Raw
  | [] => [[]]
  | d :: r =>
    if d = c then [] :: splitOn c r
    else
      match splitOn c r with
      | [] => [[d]]
      | s :: rest => (d :: s) :: rest

/-- the first lines, `n` at most, and the rest; a line ends with the byte `c` -/
def cutLines (c : Char) : Nat → Raw → Raw → Raw × Raw
  | 0, done, r => (done.reverse, r)
  | _, done, [] => (done.reverse, [])
  | n + 1, done, d :: r =>
    if d = c then cutLines c n (d :: done) r else cutLines c (n + 1) (d :: done) r

/-- whether a text comes before another one, or is the same; the first byte that differs decides -/
def isUpTo : Raw → Raw → Bool
  | [], _ => true
  | _ :: _, [] => false
  | c :: r, d :: s => if c = d then isUpTo r s else decide (c.toNat < d.toNat)

def isSpace (c : Char) : Bool :=
  c = ' ' || (decide (9 ≤ c.toNat) && decide (c.toNat ≤ 13))

def isNameStart (c : Char) : Bool := c.isAlpha || c = '_'

def isNameChar (c : Char) : Bool := c.isAlphanum || c = '_'

def isName (r : Raw) : Bool :=
  match r with
  | [] => false
  | c :: r => isNameStart c && r.all isNameChar

end Raw

def raw (s : String) : Raw := (Utf8.encode s).map Raw.ofByte

def rawLine (parts : List Raw) : Raw := parts.flatten ++ ['\n']

/-! ## small laws -/

end Rota.Text
