import Rota.Program.Escape
import Rota.Program.Options

/-!
# Tr

`tr` replaces, deletes or squeezes bytes.  A set of bytes is written with single bytes, ranges,
classes in brackets, and bytes that are repeated.

* `Tr.Element`      a part of a set;
* `Tr.elements?`    the parts of a written set;
* `Tr.Plan`         what becomes of each byte;
* `Tr.run`          the tool.

Two sets are matched byte by byte; the last byte of the second one stands for those it lacks.  Where
a class of letters of one case meets the class of the other case, each letter changes its case.
-/

namespace Rota.Program.Tr

open Text

inductive ByteClass where
  | alnum
  | alpha
  | blank
  | cntrl
  | digit
  | graph
  | lower
  | print
  | punct
  | space
  | upper
  | xdigit
deriving DecidableEq, Repr

namespace ByteClass

def all : List (String × ByteClass) :=
  [("alnum", .alnum), ("alpha", .alpha), ("blank", .blank), ("cntrl", .cntrl), ("digit", .digit),
   ("graph", .graph), ("lower", .lower), ("print", .print), ("punct", .punct), ("space", .space),
   ("upper", .upper), ("xdigit", .xdigit)]

def ofName? (r : Raw) : Option ByteClass :=
  (all.find? fun n => n.1.toList = r).map (·.2)

def holds (k : ByteClass) (c : Char) : Bool :=
  let isGraph := decide (32 < c.toNat) && decide (c.toNat < 127)
  match k with
  | .alnum => c.isAlphanum
  | .alpha => c.isAlpha
  | .blank => c = ' ' || c = '\t'
  | .cntrl => decide (c.toNat < 32) || c.toNat = 127
  | .digit => c.isDigit
  | .graph => isGraph
  | .lower => c.isLower
  | .print => isGraph || c = ' '
  | .punct => isGraph && !c.isAlphanum
  | .space => Raw.isSpace c
  | .upper => c.isUpper
  | .xdigit => Radix.isDigit 16 c

end ByteClass

def allBytes : Raw := (List.range 256).map Char.ofNat

inductive Element where
  | byte (c : Char)
  | range (first last : Char)
  | classOf (k : ByteClass)
  | equivalent (c : Char)
  /-- a byte some times, or as often as it is needed -/
  | repeated (c : Char) (count : Option Nat)
deriving DecidableEq, Repr

def Element.bytes (fill : Nat) : Element → Raw
  | .byte c => [c]
  | .range a b => (List.range (b.toNat + 1 - a.toNat)).map fun k => Char.ofNat (a.toNat + k)
  | .classOf k => allBytes.filter k.holds
  | .equivalent c => [c]
  | .repeated c (some n) => List.replicate n c
  | .repeated c none => List.replicate fill c

/-! ## reading sets -/

inductive Fault where
  | noClass
  | noEquivalent
  | unknownClass (name : Raw)
  | longEquivalent (text : Raw)
  | badCount (text : Raw)
  | reversed (first last : Char)
  | repeatInFirst
  | severalRepeats
  | equivalentInSecond
  | classInSecond
  | emptySecond
  | classAtEnd
  | misaligned
  | notOneByte
  | repeatUnused
deriving DecidableEq, Repr

def shown (c : Char) : Raw := if Quoted.isPrintable c then [c] else Quoted.octalEscape c

def Fault.text : Fault → Raw
  | .noClass => raw "missing character class name '[::]'"
  | .noEquivalent => raw "missing equivalence class character '[==]'"
  | .unknownClass r => raw "invalid character class " ++ Quoted.plain r
  | .longEquivalent r => r ++ raw ": equivalence class operand must be a single character"
  | .badCount r => raw "invalid repeat count " ++ Quoted.plain r ++ raw " in [c*n] construct"
  | .reversed a b =>
    raw "range-endpoints of '" ++ shown a ++ ['-'] ++ shown b
      ++ raw "' are in reverse collating sequence order"
  | .repeatInFirst => raw "the [c*] repeat construct may not appear in string1"
  | .severalRepeats => raw "only one [c*] repeat construct may appear in string2"
  | .equivalentInSecond => raw "[=c=] expressions may not appear in string2 when translating"
  | .classInSecond =>
    raw "when translating, the only character classes that may appear in\n"
      ++ raw "string2 are 'upper' and 'lower'"
  | .emptySecond => raw "when not truncating set1, string2 must be non-empty"
  | .classAtEnd =>
    raw "when translating with string1 longer than string2,\n"
      ++ raw "the latter string must not end with a character class"
  | .misaligned => raw "misaligned [:upper:] and/or [:lower:] construct"
  | .notOneByte =>
    raw "when translating with complemented character classes,\n"
      ++ raw "string2 must map all characters in the domain to one"
  | .repeatUnused => raw "the [c*] construct may appear in string2 only when translating"

abbrev Cell := Char × Bool

def octals (r : Raw) : Raw :=
  let ds := Escape.octals 3 r
  if Radix.value 8 ds < 256 then ds else ds.take 2

def cellsFrom : Nat → Raw → List Cell
  | 0, _ => []
  | _, [] => []
  | _, ['\\'] => [('\\', false)]
  | fuel + 1, '\\' :: c :: r =>
    match octals (c :: r) with
    | [] => ((Escape.control? c).getD c, true) :: cellsFrom fuel r
    | ds => (Escape.octal ds, true) :: cellsFrom fuel ((c :: r).drop ds.length)
  | fuel + 1, c :: r => (c, false) :: cellsFrom fuel r

def cells (r : Raw) : List Cell := cellsFrom r.length r

/-- what is said about a backslash at the end and about octal digits that do not belong together -/
def warnings : Nat → Raw → List Raw
  | 0, _ => []
  | _, [] => []
  | _, ['\\'] => [raw "warning: an unescaped backslash at end of string is not portable"]
  | fuel + 1, '\\' :: c :: r =>
    match Escape.octals 3 (c :: r) with
    | [] => warnings fuel r
    | [a, b, d] =>
      if Radix.value 8 [a, b, d] < 256 then warnings fuel (r.drop 2)
      else
        (raw "warning: the ambiguous octal escape \\" ++ [a, b, d]
          ++ raw " is being\n\tinterpreted as the 2-byte sequence \\0" ++ [a, b] ++ raw ", " ++ [d])
          :: warnings fuel (r.drop 1)
    | ds => warnings fuel (r.drop (ds.length - 1))
  | fuel + 1, _ :: r => warnings fuel r

def closing? (sign : Char) : List Cell → Option (Raw × List Cell)
  | (a, x) :: (b, y) :: r =>
    if a = sign ∧ b = ']' ∧ !x ∧ !y then some ([], r)
    else (closing? sign ((b, y) :: r)).map fun p => (a :: p.1, p.2)
  | _ => none

def count? : List Cell → Option (Raw × List Cell)
  | (c, false) :: r =>
    if c = ']' then some ([], r) else (count? r).map fun p => (c :: p.1, p.2)
  | _ => none

def isCount : List Cell → Bool
  | ('*', false) :: r => isDigits r
  | _ => false
where
  isDigits : List Cell → Bool
    | (c, x) :: r => if c.isDigit then isDigits r else c = ']' && !x
    | [] => false

def repeated? : List Cell → Option (Except Fault (Element × List Cell))
  | (c, _) :: ('*', false) :: r =>
    (count? r).map fun (ds, rest) =>
      if ds = [] then .ok (.repeated c none, rest)
      else
        let base := if ds.head? = some '0' then 8 else 10
        let n := Radix.value base ds
        if ds.all (Radix.isDigit base) ∧ n < Radix.wordCount then
          .ok (.repeated c (if n = 0 then none else some n), rest)
        else .error (.badCount ds)
  | _ => none

def bracketed? : List Cell → Option (Except Fault (Element × List Cell))
  | (':', false) :: r =>
    match closing? ':' r with
    | none => none
    | some ([], _) => some (.error .noClass)
    | some (name, rest) =>
      match ByteClass.ofName? name with
      | some k => some (.ok (.classOf k, rest))
      | none => if isCount r then none else some (.error (.unknownClass name))
  | ('=', false) :: r =>
    match closing? '=' r with
    | none => none
    | some ([], _) => some (.error .noEquivalent)
    | some ([c], rest) => some (.ok (.equivalent c, rest))
    | some (text, _) => if isCount r then none else some (.error (.longEquivalent text))
  | _ => none

def plain : List Cell → Except Fault (Option Element × List Cell)
  | (a, _) :: ('-', false) :: (b, _) :: r =>
    if b < a then .error (.reversed a b) else .ok (some (.range a b), r)
  | (a, _) :: r => .ok (some (.byte a), r)
  | [] => .ok (none, [])

def elementsFrom : Nat → List Cell → Except Fault (List Element)
  | 0, _ => .ok []
  | _, [] => .ok []
  | fuel + 1, cs => do
    let special := match cs with
      | ('[', false) :: r =>
        if r.length < 2 then none
        else
          match bracketed? r with
          | some e => some e
          | none => repeated? r
      | _ => none
    match special with
    | some e =>
      let (e, rest) ← e
      return e :: (← elementsFrom fuel rest)
    | none =>
      let (e, rest) ← plain cs
      return e.toList ++ (← elementsFrom fuel rest)

def elements? (r : Raw) : Except Fault (List Element) :=
  let cs := cells r
  elementsFrom cs.length cs

/-! ## plans -/

structure Request where
  complements : Bool := false
  deletes : Bool := false
  squeezes : Bool := false
  truncates : Bool := false
deriving DecidableEq, Repr

structure Plan where
  table : Array Char
  deleted : Array Bool
  squeezed : Array Bool

def identity : Array Char := allBytes.toArray

def flags (r : Raw) : Array Bool :=
  r.foldl (fun a c => a.set! c.toNat true) (Array.replicate 256 false)

def others (r : Raw) : Raw :=
  let a := flags r
  allBytes.filter fun c => !a.getD c.toNat false

namespace Element

def isOpen : Element → Bool
  | .repeated _ none => true
  | _ => false

def isClass : Element → Bool
  | .classOf _ => true
  | _ => false

def isCase : Element → Bool
  | .classOf .lower => true
  | .classOf .upper => true
  | _ => false

def isEquivalent : Element → Bool
  | .equivalent _ => true
  | _ => false

/-- the byte that stands for those that a set lacks, if a part is its last one -/
def last? : Element → Option Char
  | .byte c => some c
  | .range _ b => some b
  | .repeated c _ => some c
  | .equivalent c => some c
  | .classOf _ => none

end Element

def bytesOf (es : List Element) : Raw := es.flatMap (Element.bytes 0)

def filled (n : Nat) (es : List Element) : List Element :=
  let missing := n - (bytesOf es).length
  es.map fun e =>
    match e with
    | .repeated c none => .repeated c (some missing)
    | e => e

def extended (n : Nat) (es : List Element) : Except Fault (List Element) :=
  let missing := n - (bytesOf es).length
  if missing = 0 then .ok es
  else
    match es.getLast? with
    | none => .error .emptySecond
    | some e =>
      match e.last? with
      | none => .error .classAtEnd
      | some c => .ok (es ++ [.repeated c (some missing)])

/-- a byte, or all letters of one case -/
inductive Item where
  | byte (c : Char)
  | letters (k : ByteClass)
deriving DecidableEq, Repr

def itemsOf (es : List Element) : List Item :=
  es.flatMap fun e =>
    match e with
    | .classOf k => if e.isCase then [.letters k] else (e.bytes 0).map .byte
    | e => (e.bytes 0).map .byte

def casePairs (k l : ByteClass) : List (Char × Char) :=
  (allBytes.filter k.holds).map fun c => (c, if l = .upper then c.toUpper else c.toLower)

/-- the bytes of two sets in pairs; `begun` is what is left of letters of one case that were begun
byte by byte -/
def pairs : Raw → List Item → List Item → Except Fault (List (Char × Char))
  | _, _, [] => .ok []
  | c :: begun, es, .byte d :: fs => (pairs begun es fs).map ((c, d) :: ·)
  | [], .byte c :: es, .byte d :: fs => (pairs [] es fs).map ((c, d) :: ·)
  | [], .letters k :: es, .byte d :: fs =>
    match allBytes.filter k.holds with
    | c :: begun => (pairs begun es fs).map ((c, d) :: ·)
    | [] => pairs [] es fs
  | [], .letters k :: es, .letters l :: fs => (pairs [] es fs).map (casePairs k l ++ ·)
  | [], [], .byte _ :: _ => .ok []
  | _, _, .letters _ :: _ => .error .misaligned

def translation (q : Request) (es fs : List Element) :
    Except Fault (List (Char × Char) × List Element) := do
  let first := if q.complements then others (bytesOf es) else bytesOf es
  let fs := filled first.length fs
  if fs.any Element.isEquivalent then throw .equivalentInSecond
  if fs.any fun f => f.isClass && !f.isCase then throw .classInSecond
  if !q.complements then
    let _ ← pairs [] (itemsOf es) (itemsOf fs)
  let fs ← if q.truncates then pure fs else extended first.length fs
  let second := bytesOf fs
  if q.complements then
    if es.any Element.isClass ∧ second.eraseDups.length ≠ 1 then throw .notOneByte
    return (first.zip second, fs)
  else return ((← pairs [] (itemsOf es) (itemsOf fs)), fs)

def tableOf (ps : List (Char × Char)) : Array Char :=
  ps.foldl (fun a p => a.set! p.1.toNat p.2) identity

def plan (q : Request) (es : List Element) (fs : Option (List Element)) : Except Fault Plan := do
  if es.any Element.isOpen then throw .repeatInFirst
  let first := if q.complements then others (bytesOf es) else bytesOf es
  match fs with
  | none =>
    if q.deletes then return ⟨identity, flags first, flags []⟩
    else return ⟨identity, flags [], flags first⟩
  | some fs =>
    if 1 < (fs.filter Element.isOpen).length then throw .severalRepeats
    if q.deletes then
      if fs.any Element.isOpen then throw .repeatUnused
      return ⟨identity, flags first, flags (bytesOf fs)⟩
    else
      let (ps, fs) ← translation q es fs
      return ⟨tableOf ps, flags [], flags (if q.squeezes then bytesOf fs else [])⟩

namespace Plan

def apply (p : Plan) (c : Char) : Raw :=
  if p.deleted.getD c.toNat false then [] else [p.table.getD c.toNat c]

/-- without the bytes of the set that follow the same byte; the result has its last byte first -/
def squeeze (set : Array Bool) (done : Raw) (r : Raw) : Raw :=
  r.foldl
    (fun done c => if done.head? = some c ∧ set.getD c.toNat false then done else c :: done) done

def applyTo (p : Plan) (s : Stream) : Stream :=
  let s := s.flatMap p.apply
  if p.squeezed.any id then
    let done := squeeze p.squeezed [] s.text
    match s.tail with
    | .repeats t =>
      let next := squeeze p.squeezed done t
      let more := (squeeze p.squeezed (t.getLast?.toList) t).length - 1
      ⟨next.reverse, if more = 0 then .hangs else .repeats t⟩
    | tail => ⟨done.reverse, tail⟩
  else s

end Plan

/-! ## the tool -/

def options : OptionTable where
  letters := "AcCdst".toList.map fun c => (c, false)
  names :=
    [("complement", 'c'), ("delete", 'd'), ("squeeze-repeats", 's'), ("truncate-set1", 't'),
     ("help", 'h'), ("version", 'v')]
  mixes := false

def Request.withOption (q : Request) (c : Char) : Request :=
  match c with
  | 'c' => { q with complements := true }
  | 'C' => { q with complements := true }
  | 'd' => { q with deletes := true }
  | 's' => { q with squeezes := true }
  | 't' => { q with truncates := true }
  | _ => q

def Request.setCounts (q : Request) : Nat × Nat :=
  (if q.deletes = q.squeezes then 2 else 1, if q.deletes && !q.squeezes then 1 else 2)

def countFault? (q : Request) (args sets : List Raw) : Option Raw :=
  let (fewest, most) := q.setCounts
  if sets.length < fewest then
    if sets = [] then some (raw "missing operand")
    else
      some (rawLine [raw "missing operand after ", Quoted.plain (args.getLast?.getD [])]
        ++ raw (if q.squeezes then
            "Two strings must be given when both deleting and squeezing repeats."
          else "Two strings must be given when translating."))
  else if most < sets.length then
    let extra := raw "extra operand " ++ Quoted.plain (sets.getD most [])
    if sets.length = 2 then
      some (rawLine [extra]
        ++ raw "Only one string may be given when deleting without squeezing repeats.")
    else some extra
  else none

def message (r : Raw) : Raw := rawLine [raw "tr: ", r]

def run (args : List Raw) (input : Input) : Outcome :=
  let o := options.read args
  let q := o.options.foldl (fun q option => q.withOption option.1) ({} : Request)
  match o.fault, countFault? q args o.operands with
  | some f, _ => misuse "tr" f.text
  | none, some text => misuse "tr" text
  | none, none =>
    let notes := o.operands.flatMap fun r => (warnings r.length r).flatMap message
    let made := do
      let es ← elements? (o.operands.getD 0 [])
      let fs ← match o.operands[1]? with
        | some r => (elements? r).map some
        | none => .ok none
      plan q es fs
    match made with
    | .error f => .complaint 1 (notes ++ message f.text)
    | .ok p =>
      match input.stdin with
      | .error f => .complaint 1 (notes ++ message (raw "read error: " ++ raw f.text))
      | .ok s =>
        let t := p.applyTo s
        { writes := (if notes = [] then [] else [(.errors, notes)]) ++ [(.output, t.text)]
          tail := t.tail
          left := some { stream := ⟨[], s.tail⟩, sawEnd := true } }

/-! ## small laws -/

end Rota.Program.Tr
