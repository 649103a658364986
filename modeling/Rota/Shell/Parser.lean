import Rota.Shell.Lexer

/-!
# Commands of a script, read

A script is read line by line: a line is run before the next one is read.  A line is a list of
pipelines with conditions between them; a pipeline is made of commands.

* `Parser.list`      a list of commands;
* `Parser.next?`     the next line of a script.

A command that holds lists of commands reads them by the parser of the next depth; a script is never
deeper than it is long.
-/

namespace Rota.Shell

open Text

namespace Parser

open Lexer

def keywords : Looking := { seesKeywords := true }

def linesAndKeywords : Looking := { skipsLines := true, seesKeywords := true }

/-- at the beginning of a command aliases are seen too -/
def atCommand : Looking := { linesAndKeywords with seesAliases := true }

def expect (g : Grammar) (l : Looking) (k : Keyword) : Parse Unit := do
  if (← token g l).isKeyword k then return else Parse.unexpected (some (.keyword k))

/-- a list of commands inside a command; it is empty only where the script ends -/
def body (g : Grammar) : Parse Command := do
  return (← g.list .body).getD (.simple 0 [] [] [])

/-! ## redirections -/

def announce (p : Pending) : Parse Unit := modify fun c =>
  { c with documents := c.documents.push [], pending := c.pending ++ [p] }

def redirect (g : Grammar) (channel : Nat) (o : Opening) : Parse Redirect := do
  match o with
  | .document stripsTabs =>
    blanks (← Parse.fuel)
    match ← Parse.peek with
    | some c =>
      if endsWord c then
        let _ ← token g {}
        Parse.unexpected none
      else
        let (text, isLiteral) ← delimiter (← Parse.fuel)
        let number := (← get).documents.size
        announce ⟨number, stripsTabs, isLiteral, text⟩
        return .document channel number
    | none =>
      let _ ← token g {}
      Parse.unexpected none
  | .copy =>
    match ← token g {} with
    | .word w => return .copy channel w
    | _ => Parse.unexpected none
  | .file mode =>
    match ← token g {} with
    | .word w => return .file channel mode w
    | _ => Parse.unexpected none

def redirects (g : Grammar) : Nat → Parse (List Redirect)
  | 0 => return []
  | fuel + 1 => do
    match ← token g keywords with
    | .redirect channel o => return (← redirect g channel o) :: (← redirects g fuel)
    | _ => pushBack; return []

/-! ## simple commands -/

structure Simple where
  assigned : List (Raw × Word) := []
  words : List Word := []
  redirects : List Redirect := []

def functionBody (g : Grammar) (command : Looking → Parse Command) (name : Word) :
    Parse Command := do
  match ← token g {} with
  | .closeParen =>
    match Word.plain? name with
    | some r =>
      if !Raw.isName r || isSpecialName r then Parse.fail (raw "Bad function name")
      else return .define r (← command linesAndKeywords)
    | none => Parse.fail (raw "Bad function name")
  | _ => Parse.unexpected (some .closeParen)

def simple (g : Grammar) (command : Looking → Parse Command) (line : Nat) :
    Nat → Simple → Parse Command
  | 0, s => return .simple line s.assigned s.words s.redirects
  | fuel + 1, s => do
    match ← token g { seesAliases := s.words.isEmpty } with
    | .word w =>
      match s.words, Word.assignment? w with
      | [], some a => simple g command line fuel { s with assigned := s.assigned ++ [a] }
      | _, _ => simple g command line fuel { s with words := s.words ++ [w] }
    | .redirect channel o =>
      let r ← redirect g channel o
      simple g command line fuel { s with redirects := s.redirects ++ [r] }
    | .openParen =>
      match s with
      | ⟨[], [name], []⟩ => functionBody g command name
      | s => pushBack; return .simple line s.assigned s.words s.redirects
    | _ => pushBack; return .simple line s.assigned s.words s.redirects

/-! ## commands that hold commands -/

def conditional (g : Grammar) : Nat → Parse Command
  | 0 => Parse.unexpected none
  | fuel + 1 => do
    let test ← body g
    expect g {} .thenWord
    let yes ← body g
    match ← token g {} with
    | .keyword .elifWord => return .conditional test yes (some (← conditional g fuel))
    | .keyword .elseWord => return .conditional test yes (some (← body g))
    | _ => pushBack; return .conditional test yes none

def loopWords (g : Grammar) : Nat → Parse (List Word)
  | 0 => return []
  | fuel + 1 => do
    match ← token g {} with
    | .word w => return w :: (← loopWords g fuel)
    | .newline => return []
    | .semicolon => return []
    | _ => Parse.unexpected none

def allArguments : Word := [.quote, .parameter ['@'] .plain true]

def each (g : Grammar) (line : Nat) : Parse Command := do
  let name ← match ← token g {} with
    | .word w => pure (Word.plain? w)
    | _ => pure none
  match name with
  | none => Parse.fail (raw "Bad for loop variable")
  | some name =>
    if !Raw.isName name then Parse.fail (raw "Bad for loop variable")
    let words ← match ← token g linesAndKeywords with
      | .keyword .inWord => loopWords g (← Parse.fuel)
      | .semicolon => pure [allArguments]
      | _ => do pushBack; pure [allArguments]
    expect g linesAndKeywords .doWord
    return .each line name words (← body g)

def patterns (g : Grammar) : Nat → Token → Parse (List Word)
  | 0, _ => Parse.unexpected none
  | fuel + 1, t => do
    let w : Word := match t with
      | .word w => w
      | .keyword k => k.text.map fun c => .byte c false
      | _ => []
    match ← token g {} with
    | .pipe => return w :: (← patterns g fuel (← token g {}))
    | .closeParen => return [w]
    | _ => Parse.unexpected (some .closeParen)

def cases (g : Grammar) : Nat → Parse (List (List Word × Option Command))
  | 0 => Parse.unexpected none
  | fuel + 1 => do
    let t ← token g linesAndKeywords
    if t.isKeyword .esacWord then return []
    else
      let t ← match t with
        | .openParen => token g {}
        | t => pure t
      let ps ← patterns g (← Parse.fuel) t
      let c ← g.list .optional
      match ← token g linesAndKeywords with
      | .keyword .esacWord => return [(ps, c)]
      | .endCase => return (ps, c) :: (← cases g fuel)
      | _ => Parse.unexpected (some .endCase)

def choice (g : Grammar) (line : Nat) : Parse Command := do
  match ← token g {} with
  | .word w =>
    expect g linesAndKeywords .inWord
    return .choice line w (← cases g (← Parse.fuel))
  | _ => Parse.unexpected (some (.word []))

def withRedirects (g : Grammar) (line : Nat) (c : Command) : Parse Command := do
  match ← redirects g (← Parse.fuel) with
  | [] => return c
  | rs =>
    match c with
    | .subshell line c _ => return .subshell line c rs
    | c => return .redirected line c rs

/-- a command; `nested` reads the command of a function -/
def commandWith (g : Grammar) (nested : Looking → Parse Command) (l : Looking) : Parse Command := do
  let line := (← get).line
  let closed (c : Command) (t : Token) : Parse Command := do
    let found ← token g {}
    match found, t with
    | .closeParen, .closeParen => withRedirects g line c
    | .keyword k, .keyword k' =>
      if k = k' then withRedirects g line c else Parse.unexpected (some t)
    | _, _ => Parse.unexpected (some t)
  match ← token g l with
  | .keyword .ifWord => closed (← conditional g (← Parse.fuel)) (.keyword .fiWord)
  | .keyword .whileWord =>
    let test ← body g
    expect g {} .doWord
    closed (.loop false test (← body g)) (.keyword .doneWord)
  | .keyword .untilWord =>
    let test ← body g
    expect g {} .doWord
    closed (.loop true test (← body g)) (.keyword .doneWord)
  | .keyword .forWord => closed (← each g line) (.keyword .doneWord)
  | .keyword .caseWord => withRedirects g line (← choice g line)
  | .keyword .openBrace => closed (← body g) (.keyword .closeBrace)
  | .openParen => closed (.subshell line (← body g) []) .closeParen
  | .word _ =>
    pushBack
    simple g nested (← get).line (← Parse.fuel) {}
  | .redirect _ _ =>
    pushBack
    simple g nested (← get).line (← Parse.fuel) {}
  | _ => Parse.unexpected none

def command (g : Grammar) : Nat → Looking → Parse Command
  | 0, l => commandWith g (fun _ => Parse.unexpected none) l
  | fuel + 1, l => commandWith g (command g fuel) l

/-! ## pipelines and lists -/

def stages (g : Grammar) : Nat → Parse (List Command)
  | 0 => return []
  | fuel + 1 => do
    if (← token g {}).isPipe then
      let c ← command g (← Parse.fuel) atCommand
      return c :: (← stages g fuel)
    else
      pushBack
      return []

def pipeline (g : Grammar) (l : Looking) : Parse Command := do
  let isNegated := (← token g l).isKeyword .bang
  let l ← if isNegated then pure { keywords with seesAliases := true } else do pushBack; pure {}
  let c ← command g (← Parse.fuel) l
  let c ← match ← stages g (← Parse.fuel) with
    | [] => pure c
    | cs => pure (.pipeline (c :: cs))
  return if isNegated then .negated c else c

def conditions (g : Grammar) : Nat → Command → Parse Command
  | 0, c => return c
  | fuel + 1, c => do
    match ← token g {} with
    | .andAnd => conditions g fuel (.both c (← pipeline g atCommand))
    | .orOr => conditions g fuel (.either c (← pipeline g atCommand))
    | _ => pushBack; return c

def conditioned (g : Grammar) : Parse Command := do
  conditions g (← Parse.fuel) (← pipeline g {})

def after (done : Option Command) (c : Command) : Command :=
  match done with
  | none => c
  | some d => .sequence d c

/-- a list of commands after those that were read; a line ends with its line, other lists end before
a token that ends them -/
def listFrom (g : Grammar) (kind : ListKind) : Nat → Option Command → Parse (Option Command)
  | 0, _ => Parse.unexpected none
  | fuel + 1, done => do
    let isLine := kind = .line
    let t ← token g { skipsLines := !isLine, seesKeywords := true, seesAliases := true }
    match t with
    | .newline =>
      documents g
      return done
    | .endOfFile =>
      documents g
      modify fun c => { c with isPushed := true, last := .endOfFile }
      return done
    | t =>
      pushBack
      if t.endsList && !isLine && (done.isSome || kind = .optional) then return done
      else
        let c ← conditioned g
        let separator ← token g {}
        let c := match separator with
          | .ampersand => Command.background c
          | _ => c
        let done := some (after done c)
        match separator with
        | .endOfFile =>
          documents g
          modify fun c => { c with isPushed := true, last := .endOfFile }
          return done
        | .newline => pushBack; listFrom g kind fuel done
        | .ampersand => listFrom g kind fuel done
        | .semicolon => listFrom g kind fuel done
        | _ =>
          if isLine then Parse.unexpected none
          else
            pushBack
            return done

/-- a list of commands; lists inside are read by the parser of the next depth -/
def list : Nat → ListKind → Parse (Option Command)
  | 0, _ => Parse.unexpected none
  | depth + 1, kind => do listFrom ⟨list depth⟩ kind (← Parse.fuel) none

structure Line where
  command : Option Command
  isLast : Bool
  cursor : Cursor

def next? (c : Cursor) : Except ParseFault (Option Line) := do
  let c := { c with isPushed := false, pending := [], replaced := [] }
  let (command, c) ← (list (c.rest.length + 2) .line).run c
  let isEnd := c.isPushed && match c.last with
    | .endOfFile => true
    | _ => false
  return if isEnd && command.isNone then none else some ⟨command, isEnd, c⟩

end Parser

end Rota.Shell
