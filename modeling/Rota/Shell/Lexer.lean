import Rota.Shell.Cursor

/-!
# Words of a script

Where a piece of a word stands decides what its bytes mean: outside quotes, inside double quotes,
inside the braces of a parameter, inside an expression, or in a text of the script.  Commands inside
a word are read by whoever reads commands; `Grammar` hands that over.

* `Context`          where a piece stands;
* `Lexer.pieces`     the pieces up to the end of a context;
* `Lexer.documents`  the texts that were announced, read from the lines that follow;
* `Lexer.token`      the next token.
-/

namespace Rota.Shell

open Text

inductive ListKind where
  | line
  /-- the inside of a command; it holds one command at least -/
  | body
  | optional
deriving DecidableEq, Repr

/-- how commands inside words are read -/
structure Grammar where
  list : ListKind → Parse (Option Command)

inductive Context where
  | bare
  | braced
  | double
  /-- in the braces of a parameter that is quoted; `isInner` says whether further quotes are open -/
  | bracedDouble (isInner : Bool)
  | expression (depth : Nat)
  | document
deriving DecidableEq, Repr

namespace Context

def isQuoted : Context → Bool
  | .bare => false
  | .braced => false
  | _ => true

/-- whether a backslash before a byte is no part of the word -/
def unescapes (ctx : Context) (c : Char) : Bool :=
  match ctx with
  | .bare => true
  | .braced => true
  | _ =>
    c = '\\' || c = '$' || c.toNat = 96 || (c = '"' && ctx ≠ .document)
      || (c = '}' && (ctx = .bracedDouble false || ctx = .bracedDouble true))

end Context

namespace Lexer

def endsWord (c : Char) : Bool := " \t\n;&|<>()".toList.contains c

def backquote : Char := Char.ofNat 96

def isSpecialSign (c : Char) : Bool := "@*#?-$!".toList.contains c

def unterminated {α : Type} : Parse α := Parse.fail (raw "Unterminated quoted string")

def single : Parse Raw := do
  let c ← get
  let (inside, rest) := Raw.upTo (· = '\'') c.rest
  let line := c.line + (inside.filter (· = '\n')).length
  set { c with rest := rest.drop 1, line := line }
  if rest = [] then unterminated else return inside

/-- the text between backquotes: a backslash counts only before a backslash, a dollar, a backquote,
and inside quotes before a quote -/
def backquoted (isQuoted : Bool) : Nat → Raw → Parse Raw
  | 0, done => return done.reverse
  | fuel + 1, done => do
    match ← Parse.peek with
    | none => Parse.fail (raw "EOF in backquote substitution")
    | some c =>
      Parse.skip
      if c = backquote then return done.reverse
      else if c = '\\' then
        match ← Parse.peekByte with
        | none => backquoted isQuoted fuel (c :: done)
        | some d =>
          Parse.skip
          let isEscape := d = '\\' || d = backquote || d = '$' || (isQuoted && d = '"')
          backquoted isQuoted fuel (if isEscape then d :: done else d :: c :: done)
      else backquoted isQuoted fuel (c :: done)

def within (g : Grammar) (text : Raw) : Parse (Option Command) := do
  let outer ← get
  set { rest := text, documents := outer.documents : Cursor }
  let body ← g.list .optional
  let inner ← get
  set { outer with documents := inner.documents }
  return body

def parenthesized (g : Grammar) : Parse (Option Command) := do
  let outer ← get
  set { outer with isPushed := false, pending := [] }
  let body ← g.list .optional
  match (← get).last with
  | .closeParen =>
    modify fun c =>
      { c with isPushed := outer.isPushed, last := outer.last, pending := outer.pending }
    return body
  | _ => Parse.unexpected (some .closeParen)

inductive Operator where
  | plain
  | fallback (f : Fallback) (alsoEmpty : Bool)
  | trim (atEnd isLongest : Bool)
  | bad
deriving DecidableEq, Repr

def operatorOf (alsoEmpty : Bool) : Option Char → Operator
  | some '}' => .plain
  | some '-' => .fallback .word alsoEmpty
  | some '+' => .fallback .alternative alsoEmpty
  | some '?' => .fallback .fault alsoEmpty
  | some '=' => .fallback .assigned alsoEmpty
  | _ => .bad

/-- reads the operator after a name; `isClosed` says whether the brace was read with it -/
def operator : Parse (Operator × Bool) := do
  let c ← Parse.peek
  Parse.skip
  match c with
  | some ':' =>
    let d ← Parse.peek
    Parse.skip
    return (operatorOf true d, d = some '}')
  | some '%' => do return (.trim true (← Parse.accept '%'), false)
  | some '#' => do return (.trim false (← Parse.accept '#'), false)
  | c => return (operatorOf false c, c = some '}')

/-- the name in the braces of a parameter, after a length sign or without one; and whether the sign
is the operator of a length -/
def bracedName : Parse (Raw × Bool × Bool) := do
  match ← Parse.peek with
  | none => return ([], false, true)
  | some c =>
    if Raw.isNameStart c then return ((← Parse.takeWhile Raw.isNameChar), false, false)
    else if c.isDigit then return ((← Parse.takeWhile Char.isDigit), false, false)
    else if c = '}' then return ([], false, true)
    else if c = '#' then
      Parse.skip
      let d ← Parse.peek
      match d with
      | none => return (['#'], false, false)
      | some d =>
        if Raw.isNameStart d then return ((← Parse.takeWhile Raw.isNameChar), true, false)
        else if d.isDigit then return ((← Parse.takeWhile Char.isDigit), true, false)
        else if d = '}' then return (['#'], false, false)
        else
          let before ← get
          Parse.skip
          if (← Parse.peek) = some '}' then
            if isSpecialSign d then return ([d], true, false) else return ([], false, true)
          else
            set before
            return (['#'], false, false)
    else if isSpecialSign c then
      Parse.skip
      return ([c], false, false)
    else
      Parse.skip
      return ([], false, true)

def wordContext (ctx : Context) (o : Operator) : Context :=
  match o with
  | .trim _ _ => .braced
  | _ => if ctx.isQuoted then .bracedDouble false else .braced

def useOf (o : Operator) (word : Word) : Use :=
  match o with
  | .plain => .plain
  | .fallback f alsoEmpty => .fallback f alsoEmpty word
  | .trim atEnd isLongest => .trim atEnd isLongest word
  | .bad => .bad

def endFault? : Context → Option Raw
  | .bare => none
  | .document => none
  | .braced => some (raw "Missing '\x7d'")
  | .expression _ => some (raw "Missing '))'")
  | _ => some (raw "Unterminated quoted string")

/-- the pieces up to the end of a context; the byte that ends it is passed over, unless it ends a
word outside quotes -/
def pieces (g : Grammar) : Nat → Context → Parse Word
  | 0, _ => Parse.fail (raw "Out of space")
  | fuel + 1, ctx => do
    match ← Parse.peek with
    | none =>
      match endFault? ctx with
      | some text => Parse.fail text
      | none => return []
    | some c =>
      if ctx = .bare && endsWord c then return []
      else
        Parse.skip
        let isQuoted := ctx.isQuoted
        if c = '\\' then
          match ← Parse.peekByte with
          | none => return .byte '\\' true :: (← pieces g fuel ctx)
          | some d =>
            Parse.skip
            let rest ← pieces g fuel ctx
            if ctx.unescapes d then return .byte d true :: rest
            else return .byte '\\' true :: .byte d true :: rest
        else if c = '\'' && !isQuoted then
          let inside ← single
          return .quote :: Word.quoted inside ++ (← pieces g fuel ctx)
        else if c = '"' then
          match ctx with
          | .bare => return .quote :: (← pieces g fuel .double) ++ (← pieces g fuel ctx)
          | .braced => return .quote :: (← pieces g fuel .double) ++ (← pieces g fuel ctx)
          | .double => return []
          | .bracedDouble isInner => return .quote :: (← pieces g fuel (.bracedDouble !isInner))
          | .expression _ => return .byte c true :: (← pieces g fuel ctx)
          | .document => return .byte c true :: (← pieces g fuel ctx)
        else if c = backquote then
          let text ← backquoted isQuoted (← Parse.fuel) []
          let body ← within g text
          return .output body isQuoted :: (← pieces g fuel ctx)
        else if c = '$' then
          let p ← parameter fuel isQuoted
          return p :: (← pieces g fuel ctx)
        else if c = '}' && (ctx = .braced || ctx = .bracedDouble false) then return []
        else
          match ctx with
          | .expression depth =>
            if c = '(' then return .byte c true :: (← pieces g fuel (.expression (depth + 1)))
            else if c = ')' then
              if depth = 0 then
                if ← Parse.accept ')' then return []
                else return .byte c true :: (← pieces g fuel ctx)
              else return .byte c true :: (← pieces g fuel (.expression (depth - 1)))
            else return .byte c true :: (← pieces g fuel ctx)
          | _ => return .byte c isQuoted :: (← pieces g fuel ctx)
where
  parameter (fuel : Nat) (isQuoted : Bool) : Parse Piece := do
    match ← Parse.peek with
    | none => return .byte '$' isQuoted
    | some c =>
      if c = '(' then
        Parse.skip
        if ← Parse.accept '(' then return .value (← pieces g fuel (.expression 0)) isQuoted
        else return .output (← parenthesized g) isQuoted
      else if c = '{' then
        Parse.skip
        let (name, isLength, isBad) ← bracedName
        let ctx := if isQuoted then Context.double else .bare
        if isLength || isBad then
          let isClosed := (← Parse.peek) = some '}'
          let _ ← pieces g fuel (wordContext ctx .bad)
          return .parameter name (if isLength && isClosed then .length else .bad) isQuoted
        else
          let (o, isClosed) ← operator
          let word ← if isClosed then pure [] else pieces g fuel (wordContext ctx o)
          return .parameter name (useOf o word) isQuoted
      else if Raw.isNameStart c then
        return .parameter (← Parse.takeWhile Raw.isNameChar) .plain isQuoted
      else if c.isDigit || isSpecialSign c then
        Parse.skip
        return .parameter [c] .plain isQuoted
      else return .byte '$' isQuoted

/-! ## texts in the script -/

def delimiter : Nat → Parse (Raw × Bool)
  | 0 => return ([], false)
  | fuel + 1 => do
    match ← Parse.peek with
    | none => return ([], false)
    | some c =>
      if endsWord c then return ([], false)
      else
        Parse.skip
        if c = '\'' then
          let inside ← single
          let (rest, _) ← delimiter fuel
          return (inside ++ rest, true)
        else if c = '"' then
          let inside ← quoted fuel
          let (rest, _) ← delimiter fuel
          return (inside ++ rest, true)
        else if c = '\\' then
          match ← Parse.peekByte with
          | none => return ([c], true)
          | some d =>
            Parse.skip
            let (rest, _) ← delimiter fuel
            return (d :: rest, true)
        else
          let (rest, isQuoted) ← delimiter fuel
          return (c :: rest, isQuoted)
where
  quoted : Nat → Parse Raw
    | 0 => return []
    | fuel + 1 => do
      match ← Parse.peek with
      | none => unterminated
      | some c =>
        Parse.skip
        if c = '"' then return []
        else if c = '\\' then
          match ← Parse.peekByte with
          | none => return [c]
          | some d =>
            Parse.skip
            let rest ← quoted fuel
            return if Context.double.unescapes d then d :: rest else c :: d :: rest
        else return c :: (← quoted fuel)

/-- the lines up to a delimiter, and what follows it; and how many lines that are -/
def cut (p : Pending) : Nat → Raw → List Raw → Nat → Raw × Raw × Nat
  | 0, r, done, n => (done.reverse.flatten, r, n)
  | _, [], done, n => (done.reverse.flatten, [], n)
  | fuel + 1, c :: r, done, n =>
    let (line, rest) := Raw.upTo (· = '\n') (c :: r)
    let line := if p.stripsTabs then line.dropWhile (· = '\t') else line
    if line = p.delimiter then (done.reverse.flatten, rest.drop 1, n + 1)
    else cut p fuel (rest.drop 1) ((line ++ rest.take 1) :: done) (n + 1)

def document (g : Grammar) (p : Pending) : Parse Unit := do
  let c ← get
  let (text, rest, n) := cut p (c.rest.length + 1) c.rest [] 0
  let word ←
    if p.isLiteral then pure (Word.quoted text)
    else
      set { c with rest := text }
      pieces g (← Parse.fuel) .document
  modify fun d =>
    { c with
      rest := rest
      line := c.line + n
      documents := d.documents.set! p.number word }

def documents (g : Grammar) : Parse Unit := do
  let pending := (← get).pending
  modify fun c => { c with pending := [] }
  pending.forM (document g)

/-! ## tokens -/

def opening (first : Char) : Parse Opening := do
  if first = '>' then
    if ← Parse.accept '>' then return .file .append
    else if ← Parse.accept '|' then return .file .replace
    else if ← Parse.accept '&' then return .copy
    else return .file .write
  else if ← Parse.accept '<' then return .document (← Parse.accept '-')
  else if ← Parse.accept '&' then return .copy
  else if ← Parse.accept '>' then return .file .readWrite
  else return .file .read

def channel? : Word → Option (Option Nat)
  | [] => some none
  | [.byte c false] => if c.isDigit then some (some (c.toNat - 48)) else none
  | _ => none

def wordToken (g : Grammar) : Parse Token := do
  let w ← pieces g (← Parse.fuel) .bare
  match ← Parse.peek, channel? w with
  | some c, some channel =>
    if c = '<' || c = '>' then
      Parse.skip
      let o ← opening c
      return .redirect (channel.getD (if c = '>' then 1 else 0)) o
    else return .word w
  | _, _ => return .word w

def blanks : Nat → Parse Unit
  | 0 => return
  | fuel + 1 => do
    match ← Parse.peek with
    | some c =>
      if c = ' ' || c = '\t' then
        Parse.skip
        blanks fuel
      else if c = '#' then
        modify fun c => { c with rest := c.rest.dropWhile (· ≠ '\n') }
        blanks fuel
      else return
    | none => return

/-- the next token, which no keyword was looked for in -/
def fresh (g : Grammar) : Parse Token := do
  blanks (← Parse.fuel)
  match ← Parse.peek with
  | none => return .endOfFile
  | some '\n' => Parse.skip; return .newline
  | some '&' => Parse.skip; return if ← Parse.accept '&' then .andAnd else .ampersand
  | some '|' => Parse.skip; return if ← Parse.accept '|' then .orOr else .pipe
  | some ';' => Parse.skip; return if ← Parse.accept ';' then .endCase else .semicolon
  | some '(' => Parse.skip; return .openParen
  | some ')' => Parse.skip; return .closeParen
  | some _ => wordToken g

def next (g : Grammar) : Parse Token := do
  let c ← get
  let t ← if c.isPushed then pure c.last else fresh g
  modify fun c => { c with isPushed := false, last := t }
  return t

/-- passes over ends of lines, after each of which announced texts are read -/
def afterLines (g : Grammar) : Nat → Token → Parse Token
  | 0, t => return t
  | fuel + 1, t => do
    if t.isNewline then
      documents g
      afterLines g fuel (← next g)
    else return t

def asKeyword (t : Token) : Token :=
  match t with
  | .word w =>
    match (Word.plain? w).bind Keyword.ofText? with
    | some k => .keyword k
    | none => t
  | _ => t

structure Looking where
  skipsLines : Bool := false
  seesKeywords : Bool := false
  seesAliases : Bool := false

/-- the text of an alias that is a token, unless the token is inside that text -/
def aliasText? (c : Cursor) (t : Token) : Option (Raw × Raw) :=
  match t with
  | .word w =>
    match Word.plain? w with
    | some name =>
      if c.replaced.any fun u => u.1 = name && decide (u.2 ≤ c.rest.length) then none
      else (c.aliases.lookup name).map fun text => (name, text)
    | none => none
  | _ => none

/-- the next token; `fuel` bounds how often an alias is replaced -/
def tokenFrom (g : Grammar) (l : Looking) : Nat → Parse Token
  | 0 => next g
  | fuel + 1 => do
    let t ← next g
    let t ← if l.skipsLines then afterLines g (← Parse.fuel) t else pure t
    let t := if l.seesKeywords then asKeyword t else t
    modify fun c => { c with last := t }
    let c ← get
    match if l.seesAliases then aliasText? c t else none with
    | none => return t
    | some (name, text) =>
      set { c with rest := text ++ c.rest, replaced := (name, c.rest.length) :: c.replaced }
      tokenFrom g l fuel

def token (g : Grammar) (l : Looking) : Parse Token := do
  tokenFrom g l ((← get).aliases.length + 1)

def pushBack : Parse Unit := modify fun c => { c with isPushed := true }

end Lexer

end Rota.Shell
