import Rota.Program.Escape
import Rota.Program.Outcome

/-!
# Echo

`echo` prints its arguments with blanks between them.  Its options are letters in front: `n` leaves
out the end of the line, and the last of `e` and `E` says whether escapes count.
-/

namespace Rota.Program.Echo

open Text

def isOption (r : Raw) : Bool :=
  match r with
  | '-' :: c :: r => (c :: r).all fun c => c = 'n' || c = 'e' || c = 'E'
  | _ => false

def printed (args : List Raw) : Raw :=
  let options := (args.takeWhile isOption).flatten
  let text := Raw.joined [' '] (args.dropWhile isOption)
  let escapes := decide ((options.filter fun c => c = 'e' || c = 'E').getLast? = some 'e')
  let (text, stops) := if escapes then Escape.verbose text else (text, false)
  if stops || options.contains 'n' then text else text ++ ['\n']

def run (args : List Raw) : Outcome := .printed (printed args)

/-! ## small laws -/

end Rota.Program.Echo
