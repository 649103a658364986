import Rota.Json.Basic
import Rota.Text.Numeral

/-!
# JSON text, written

* `Json.escape`     one character inside a string;
* `Json.quoted`     a string with its quotes;
* `Json.chars`      a value without any space, the fields of objects in their order;
* `Json.record`     an object of plain values, one field a line, two spaces in front.

Quotes, backslashes and the control characters below the space are escaped, everything else is
written as it is.
-/

namespace Rota.Json

open Text

def hexDigit (n : Nat) : Char := Nat.digitChar n

def escape (c : Char) : List Char :=
  if c = '"' then ['\\', '"']
  else if c = '\\' then ['\\', '\\']
  else if c = '\n' then ['\\', 'n']
  else if c = '\t' then ['\\', 't']
  else if c = '\r' then ['\\', 'r']
  else if c.toNat = 8 then ['\\', 'b']
  else if c.toNat = 12 then ['\\', 'f']
  else if c.toNat < 32 then
    ['\\', 'u', '0', '0', hexDigit (c.toNat / 16), hexDigit (c.toNat % 16)]
  else [c]

def quoted (s : String) : List Char := '"' :: (s.toList.flatMap escape ++ ['"'])

def decimalChars (mantissa exponent : Int) : List Char :=
  Numeral.integer mantissa ++ 'e' :: Numeral.integer exponent

mutual

def chars : Json → List Char
  | .null => ['n', 'u', 'l', 'l']
  | .bool true => ['t', 'r', 'u', 'e']
  | .bool false => ['f', 'a', 'l', 's', 'e']
  | .int n => Numeral.integer n
  | .decimal m e => decimalChars m e
  | .str s => quoted s
  | .arr [] => ['[', ']']
  | .arr (v :: vs) => '[' :: (chars v ++ itemsChars vs)
  | .obj [] => ['{', '}']
  | .obj ((k, v) :: fs) => '{' :: (quoted k ++ ':' :: (chars v ++ fieldsChars fs))

def itemsChars : List Json → List Char
  | [] => [']']
  | v :: vs => ',' :: (chars v ++ itemsChars vs)

def fieldsChars : List (String × Json) → List Char
  | [] => ['}']
  | (k, v) :: fs => ',' :: (quoted k ++ ':' :: (chars v ++ fieldsChars fs))

end

def text (j : Json) : String := String.ofList j.chars

def recordField (f : String × Json) : List Char :=
  [' ', ' '] ++ quoted f.1 ++ [':', ' '] ++ chars f.2

def recordFields : List (String × Json) → List Char
  | [] => []
  | [f] => recordField f
  | f :: g :: fs => recordField f ++ [',', '\n'] ++ recordFields (g :: fs)

/-- an object of plain values, one field a line, without a line end after it -/
def record (fields : List (String × Json)) : List Char :=
  ['{', '\n'] ++ recordFields fields ++ ['\n', '}']

end Rota.Json
