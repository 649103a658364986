import Rota.Shell.Command

/-!
# Reading scripts

* `Token`         words, operators, redirections and keywords;
* `Cursor`        what is left of a script, its line, and the texts that were announced in it;
* `Parse`         steps that read a script;
* `Parse.peek`    the next byte; a backslash at the end of a line joins it with the next one.
-/

namespace Rota.Shell

open Text

inductive Keyword where
  | bang
  | caseWord
  | doWord
  | doneWord
  | elifWord
  | elseWord
  | esacWord
  | fiWord
  | forWord
  | ifWord
  | inWord
  | thenWord
  | untilWord
  | whileWord
  | openBrace
  | closeBrace
deriving DecidableEq, Repr

namespace Keyword

def all : List (Raw × Keyword) :=
  [(['!'], .bang), (raw "case", .caseWord), (raw "do", .doWord), (raw "done", .doneWord),
   (raw "elif", .elifWord), (raw "else", .elseWord), (raw "esac", .esacWord), (raw "fi", .fiWord),
   (raw "for", .forWord), (raw "if", .ifWord), (raw "in", .inWord), (raw "then", .thenWord),
   (raw "until", .untilWord), (raw "while", .whileWord), (['{'], .openBrace), (['}'], .closeBrace)]

def ofText? (r : Raw) : Option Keyword := all.lookup r

def text (k : Keyword) : Raw := ((all.find? fun p => p.2 = k).map (·.1)).getD []

def endsList : Keyword → Bool
  | .doWord => true
  | .doneWord => true
  | .elifWord => true
  | .elseWord => true
  | .esacWord => true
  | .fiWord => true
  | .thenWord => true
  | .closeBrace => true
  | _ => false

end Keyword

inductive Opening where
  | file (mode : FileMode)
  | copy
  | document (stripsTabs : Bool)
deriving DecidableEq, Repr

inductive Token where
  | endOfFile
  | newline
  | semicolon
  | ampersand
  | andAnd
  | orOr
  | pipe
  | openParen
  | closeParen
  | endCase
  | redirect (channel : Nat) (o : Opening)
  | word (w : Word)
  | keyword (k : Keyword)

namespace Token

def name : Token → Raw
  | .endOfFile => raw "end of file"
  | .newline => raw "newline"
  | .semicolon => raw "\";\""
  | .ampersand => raw "\"&\""
  | .andAnd => raw "\"&&\""
  | .orOr => raw "\"||\""
  | .pipe => raw "\"|\""
  | .openParen => raw "\"(\""
  | .closeParen => raw "\")\""
  | .endCase => raw "\";;\""
  | .redirect _ _ => raw "redirection"
  | .word _ => raw "word"
  | .keyword k => '"' :: k.text ++ ['"']

def endsList : Token → Bool
  | .endOfFile => true
  | .closeParen => true
  | .endCase => true
  | .keyword k => k.endsList
  | _ => false

def isKeyword (k : Keyword) : Token → Bool
  | .keyword l => k = l
  | _ => false

def isNewline : Token → Bool
  | .newline => true
  | _ => false

def isPipe : Token → Bool
  | .pipe => true
  | _ => false

end Token

structure ParseFault where
  line : Nat
  text : Raw

/-- a text in the script that was announced, but not yet read -/
structure Pending where
  number : Nat
  stripsTabs : Bool
  isLiteral : Bool
  delimiter : Raw

structure Cursor where
  rest : Raw
  line : Nat := 1
  last : Token := .endOfFile
  isPushed : Bool := false
  pending : List Pending := []
  documents : Array Word := #[]
  aliases : List (Raw × Raw) := []
  /-- the aliases under way, and how much is left after each one -/
  replaced : List (Raw × Nat) := []

abbrev Parse := StateT Cursor (Except ParseFault)

namespace Parse

def fail {α : Type} (text : Raw) : Parse α := fun c =>
  .error ⟨c.line, raw "Syntax error: " ++ text⟩

def unexpected {α : Type} (expected : Option Token) : Parse α := do
  let text := (← get).last.name ++ raw " unexpected"
  match expected with
  | some t => fail ((text ++ raw " (expecting " ++ t.name ++ [')']).take 63)
  | none => fail text

def join : Parse Unit := modify fun c =>
  let rec go : Raw → Nat → Raw × Nat
    | '\\' :: '\n' :: r, n => go r (n + 1)
    | r, n => (r, n)
  let (rest, n) := go c.rest c.line
  { c with rest := rest, line := n }

def peekByte : Parse (Option Char) := return (← get).rest.head?

/-- the next byte, where joined lines are one line -/
def peek : Parse (Option Char) := do
  join
  peekByte

def skip : Parse Unit := modify fun c =>
  match c.rest with
  | [] => c
  | d :: r => { c with rest := r, line := if d = '\n' then c.line + 1 else c.line }

def accept (d : Char) : Parse Bool := do
  if (← peek) = some d then
    skip
    return true
  else return false

def takeWhile (p : Char → Bool) : Parse Raw := do
  let rec go : Nat → Raw → Parse Raw
    | 0, done => return done.reverse
    | fuel + 1, done => do
      match ← peek with
      | some c =>
        if p c then
          skip
          go fuel (c :: done)
        else return done.reverse
      | none => return done.reverse
  go ((← get).rest.length + 1) []

/-- how many steps are enough for what is left -/
def fuel : Parse Nat := return 2 * (← get).rest.length + 16

end Parse

end Rota.Shell
