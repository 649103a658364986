import Rota.State.Store

/-!
# The state directory in a file system

A `StateStore` is the directory as the modules make it: files and folders, each with a name of its own.
A file system can hold more.  Two names can stand for one file, a name can be a link to another one or
to a place elsewhere, a file can be closed to whoever runs the agent, and any step of a save can fail.

* `Directory.Object`     what is there, with all its names;
* `Directory.follow?`    where a name leads, links followed;
* `Directory.read`, `Directory.write`, `Directory.move`   what the file system does;
* `Mishap`               a step that fails;
* `Directory.load`, `Directory.save`   the saved state of a module, read and replaced.

Reading and writing follow links; moving does not, it moves the link itself.  A name with a slash in it
is the path of something outside the directory, which only links lead to.
-/

namespace Rota

open Text

namespace Directory

inductive Node where
  | file (bytes : List UInt8) (readable writable : Bool)
  | folder
  | link (target : String)
  /-- a device or a socket: what reading it gives, and whether it takes what is written to it -/
  | device (content : Option (List UInt8)) (takes : Bool)
  /-- nothing, and nothing can be put there, for a folder on the way is missing -/
  | nowhere
deriving DecidableEq, Repr

structure Object where
  names : List String
  node : Node
deriving DecidableEq, Repr

end Directory

/-- the state directory; `missing` and `blocked` are those of `StateStore` -/
inductive Directory where
  | missing
  | blocked
  | holds (objects : List Directory.Object)
deriving DecidableEq, Repr

/-- a step of a save that fails, whatever the directory holds -/
inductive Mishap where
  | unmade
  | unopened
  /-- so many bytes of the draft are written, and no more -/
  | cutShort (bytes : Nat)
  | unmoved
deriving DecidableEq, Repr

namespace Directory

variable (objects : List Object)

def object? (name : String) : Option Object := objects.find? fun o => name ∈ o.names

def node? (name : String) : Option Node := (object? objects name).map (·.node)

def mostLinks : Nat := 40

/-- where a name leads over so many links at most -/
def follow? : Nat → String → Option String
  | 0, name =>
    match node? objects name with
    | some (.link _) => none
    | _ => some name
  | links + 1, name =>
    match node? objects name with
    | some (.link target) => follow? links target
    | _ => some name

/-- whether there can be such a name; paths may be longer -/
def isName (name : String) : Bool := name.utf8ByteSize ≤ longestFileName || name.toList.contains '/'

/-! ## reading -/

def Node.content : Option Node → Except StateFault (Option (List UInt8))
  | none => .ok none
  | some .nowhere => .ok none
  | some (.file bytes true _) => .ok (some bytes)
  | some (.device (some bytes) _) => .ok (some bytes)
  | some _ => .error .io

def read (name : String) : Except StateFault (Option (List UInt8)) :=
  match follow? objects mostLinks name with
  | none => .error .io
  | some place => if isName place then Node.content (node? objects place) else .error .io

/-! ## writing -/

def Node.written? (bytes : List UInt8) : Option Node → Option Node
  | none => some (.file bytes true true)
  | some (.file _ readable true) => some (.file bytes readable true)
  | some (.device content true) => some (.device content true)
  | some _ => none

def put (name : String) (node : Node) : List Object :=
  if (object? objects name).isSome then
    objects.map fun o => if name ∈ o.names then { o with node } else o
  else objects ++ [⟨[name], node⟩]

def write (name : String) (bytes : List UInt8) : Option (List Object) :=
  match follow? objects mostLinks name with
  | none => none
  | some place =>
    if isName place then (Node.written? bytes (node? objects place)).map (put objects place) else none

/-! ## moving -/

/-- `source` becomes `target`, and whatever had that name loses it -/
def Object.move (source target : String) (o : Object) : Object :=
  { o with names := (o.names.filter (· ≠ target)).map fun n => if n = source then target else n }

/-- nothing happens if both names stand for one thing -/
def move (source target : String) : Option (List Object) :=
  if node? objects target = some .folder then none
  else if objects.any fun o => source ∈ o.names ∧ target ∈ o.names then some objects
  else some (objects.map (Object.move source target))

end Directory

/-! ## saved states -/

def Mishap.share (bytes : List UInt8) : Option Mishap → List UInt8
  | some (.cutShort n) => bytes.take n
  | _ => bytes

namespace Directory

def objects : Directory → List Object
  | .holds objects => objects
  | _ => []

def load (d : Directory) (name : String) : Except StateFault (Option SavedState) :=
  match d with
  | .missing => .ok none
  | .blocked => .error .io
  | .holds objects =>
    match read objects (fileName name) with
    | .error e => .error e
    | .ok none => .ok none
    | .ok (some bytes) => SavedState.found (SavedState.ofBytes bytes)

def opened? (d : Directory) (mishap : Option Mishap) : Option (List Object) :=
  if d = .blocked ∨ mishap = some .unmade then none else some d.objects

/-- replaces the saved state of a module, if no step fails -/
def save (d : Directory) (name : String) (saved : SavedState) (mishap : Option Mishap) :
    Directory × Except StateFault Unit :=
  match d.opened? mishap with
  | none => (d, .error .io)
  | some objects =>
    if mishap = some .unopened then (.holds objects, .error .io)
    else
      match write objects (draftName name) (Mishap.share saved.bytes mishap) with
      | none => (.holds objects, .error .io)
      | some drafted =>
        if mishap.isSome then (.holds drafted, .error .io)
        else
          match move drafted (draftName name) (fileName name) with
          | none => (.holds drafted, .error .io)
          | some moved => (.holds moved, .ok ())

def place (name : String) (node : Node) : Directory → Directory
  | .blocked => .blocked
  | d => .holds (put d.objects name node)

/-- a file in the place of the directory, if that place is free -/
def block : Directory → Directory
  | .missing => .blocked
  | d => d

end Directory

end Rota
