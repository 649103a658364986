/-!
# Bytes as text

* `Utf8.decode`    the characters of bytes in UTF-8, with gaps where the bytes are no UTF-8;
* `Utf8.lossy`     the text of the bytes, with U+FFFD in the gaps;
* `Utf8.encode`    the bytes of a text.

Bytes that begin a character but do not complete it make one gap together, as far as they could still
belong to a character.
-/

namespace Rota.Text.Utf8

def replacement : Char := '\ufffd'

def isTail (b : UInt8) : Bool := 0x80 ≤ b && b ≤ 0xBF

/-- the bytes that can follow the first one `b` of a character of several bytes: the range of the
second byte, and how many bytes follow in all -/
def lead? (b : UInt8) : Option (UInt8 × UInt8 × Nat) :=
  if 0xC2 ≤ b && b ≤ 0xDF then some (0x80, 0xBF, 1)
  else if b == 0xE0 then some (0xA0, 0xBF, 2)
  else if b == 0xED then some (0x80, 0x9F, 2)
  else if 0xE1 ≤ b && b ≤ 0xEF then some (0x80, 0xBF, 2)
  else if b == 0xF0 then some (0x90, 0xBF, 3)
  else if 0xF1 ≤ b && b ≤ 0xF3 then some (0x80, 0xBF, 3)
  else if b == 0xF4 then some (0x80, 0x8F, 3)
  else none

def leadBits (b : UInt8) (n : Nat) : Nat := b.toNat % Nat.pow 2 (6 - n)

def tail (b : UInt8) (cs : List UInt8) : List UInt8 :=
  match lead? b, cs with
  | some (low, high, n), c :: cs =>
    if low ≤ c && c ≤ high then c :: (cs.take (n - 1)).takeWhile isTail else []
  | _, _ => []

def charOf? (b : UInt8) (bs : List UInt8) : Option Char :=
  if b < 0x80 then some (Char.ofNat b.toNat)
  else
    match lead? b with
    | some (_, _, n) =>
      if bs.length = n then
        some (Char.ofNat (bs.foldl (fun k c => k * 64 + c.toNat % 64) (leadBits b n)))
      else none
    | none => none

def decodeFrom : Nat → List UInt8 → List (Option Char)
  | 0, _ => []
  | _, [] => []
  | fuel + 1, b :: bs =>
    let t := tail b bs
    charOf? b t :: decodeFrom fuel (bs.drop t.length)

/-- the characters of bytes in UTF-8, with a gap for what is none -/
def decode (bs : List UInt8) : List (Option Char) := decodeFrom bs.length bs

/-- the text of bytes in UTF-8; what is no UTF-8 becomes U+FFFD -/
def lossy (bs : List UInt8) : List Char := (decode bs).map fun c => c.getD replacement

def encode (s : String) : List UInt8 := s.toUTF8.data.toList

end Rota.Text.Utf8
