import Rota.Text.Raw

/-!
# Commands of the shell

A script is made of commands.  A command is a simple one, that is words, or it is made of others.  A
word is made of pieces: bytes, parameters, outputs of commands and values of expressions.

* `Piece`, `Word`      words;
* `Use`                what is taken of a parameter;
* `Redirect`           where a channel of a command leads;
* `Command`            commands.

Bytes in quotes stand for themselves: they part no words and match only themselves.
-/

namespace Rota.Shell

open Text

inductive Fallback where
  | word
  | assigned
  | fault
  | alternative
deriving DecidableEq, Repr

inductive FileMode where
  | read
  | write
  | append
  | replace
  | readWrite
deriving DecidableEq, Repr

mutual

inductive Piece where
  | byte (c : Char) (isQuoted : Bool)
  /-- a quote: it keeps an empty word in being -/
  | quote
  | parameter (name : Raw) (use : Use) (isQuoted : Bool)
  | output (body : Option Command) (isQuoted : Bool)
  | value (text : List Piece) (isQuoted : Bool)

inductive Use where
  | plain
  | length
  /-- `alsoEmpty`: an empty value counts as none -/
  | fallback (f : Fallback) (alsoEmpty : Bool) (word : List Piece)
  | trim (atEnd isLongest : Bool) (pattern : List Piece)
  | bad

inductive Redirect where
  | file (channel : Nat) (mode : FileMode) (name : List Piece)
  | copy (channel : Nat) (source : List Piece)
  /-- a text in the script, by its number -/
  | document (channel : Nat) (number : Nat)

inductive Command where
  | simple (line : Nat) (assigned : List (Raw × List Piece)) (words : List (List Piece))
      (redirects : List Redirect)
  | negated (c : Command)
  | both (c d : Command)
  | either (c d : Command)
  | sequence (c d : Command)
  | pipeline (stages : List Command)
  | background (c : Command)
  | subshell (line : Nat) (c : Command) (redirects : List Redirect)
  | redirected (line : Nat) (c : Command) (redirects : List Redirect)
  | conditional (test body : Command) (otherwise : Option Command)
  | loop (isUntil : Bool) (test body : Command)
  | each (line : Nat) (name : Raw) (words : List (List Piece)) (body : Command)
  | choice (line : Nat) (word : List Piece) (cases : List (List (List Piece) × Option Command))
  | define (name : Raw) (body : Command)

end

abbrev Word := List Piece

namespace Word

def plain? : Word → Option Raw
  | [] => some []
  | .byte c false :: w => (plain? w).map (c :: ·)
  | _ => none

def assignment? (w : Word) : Option (Raw × Word) :=
  let name := w.takeWhile fun p => match p with
    | .byte c false => Raw.isNameChar c
    | _ => false
  let rest := w.drop name.length
  let name := name.filterMap fun p => match p with
    | .byte c _ => some c
    | _ => none
  match rest with
  | .byte '=' false :: value => if Raw.isName name then some (name, value) else none
  | _ => none

def quoted (r : Raw) : Word := r.map fun c => .byte c true

end Word

/-- the commands that belong to the shell so much that their faults end a script -/
def specialNames : List String :=
  [".", ":", "break", "continue", "eval", "exec", "exit", "export", "local", "readonly", "return",
   "set", "shift", "times", "trap", "unset"]

def isSpecialName (r : Raw) : Bool := specialNames.any fun s => s.toList = r

end Rota.Shell
