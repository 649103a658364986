import Rota.Assoc
import Rota.State.Saved

/-!
# The state directory

Every module has one state file in a common directory.  The directory is a value here: what it
holds, or that it is missing, or that something else is in its place.

* `StateStore`         the directory;
* `fileName`           the file of a module, and `draftName` the file it is first written to;
* `StateStore.load`    the saved state of a module;
* `StateStore.save`    replaces the saved state of a module.

A state is written to the draft first and then moved over the file, so a failing `save` leaves the
file as it was.  File names have letters, digits, dashes and underscores only; every other character
of a module's name becomes an underscore.
-/

namespace Rota

inductive Entry where
  | file (bytes : List UInt8)
  | folder
deriving DecidableEq, Repr

/-- the state directory -/
inductive StateStore where
  | missing
  /-- a file is where the directory should be -/
  | blocked
  | holds (entries : List (String × Entry))
deriving DecidableEq, Repr

inductive StateFault where
  | io
  | unreadable
deriving DecidableEq, Repr

/-! ## names -/

/-- a character of a module's name, as file names have it -/
def fileChar (c : Char) : Char := if c.isAlphanum || c == '-' || c == '_' then c else '_'

def fileStem (name : String) : List Char := name.toList.map fileChar

def fileName (name : String) : String :=
  String.ofList (fileStem name ++ ['.', 'j', 's', 'o', 'n'])

/-- the file that a state is first written to.  The ending is put in place of `.json`, but a name
that has nothing before the dot has no ending yet. -/
def draftName (name : String) : String :=
  if fileStem name = [] then ".json.json.tmp"
  else String.ofList (fileStem name ++ ['.', 'j', 's', 'o', 'n', '.', 't', 'm', 'p'])

def longestFileName : Nat := 255

/-! ## entries -/

def SavedState.found : Except Json.Fault SavedState → Except StateFault (Option SavedState)
  | .ok saved => .ok (some saved)
  | .error _ => .error .unreadable

def Entry.saved? : Option Entry → Except StateFault (Option SavedState)
  | none => .ok none
  | some .folder => .error .io
  | some (.file bytes) => SavedState.found (SavedState.ofBytes bytes)

/-! ## the store -/

namespace StateStore

def entries : StateStore → List (String × Entry)
  | .holds entries => entries
  | _ => []

def place (name : String) (e : Entry) : StateStore → StateStore
  | .missing => .holds [(name, e)]
  | .blocked => .blocked
  | .holds entries => .holds (Assoc.put name e entries)

def load (store : StateStore) (name : String) : Except StateFault (Option SavedState) :=
  match store with
  | .missing => .ok none
  | .blocked => .error .io
  | .holds entries =>
    if longestFileName < (fileName name).utf8ByteSize then .error .io
    else Entry.saved? (entries.lookup (fileName name))

/-- writes to the draft of a module -/
def writeDraft (name : String) (bytes : List UInt8) (entries : List (String × Entry)) :
    Option (List (String × Entry)) :=
  if longestFileName < (draftName name).utf8ByteSize then none
  else
    match entries.lookup (draftName name) with
    | some .folder => none
    | _ => some (Assoc.put (draftName name) (.file bytes) entries)

def moveDraft (name : String) (bytes : List UInt8) (entries : List (String × Entry)) :
    Option (List (String × Entry)) :=
  match entries.lookup (fileName name) with
  | some .folder => none
  | _ => some (Assoc.put (fileName name) (.file bytes) (Assoc.erase (draftName name) entries))

/-- replaces the saved state of a module; gives what the directory holds then, and whether the state
was saved -/
def save (store : StateStore) (name : String) (saved : SavedState) :
    StateStore × Except StateFault Unit :=
  match store with
  | .blocked => (.blocked, .error .io)
  | store =>
    match writeDraft name saved.bytes store.entries with
    | none => (.holds store.entries, .error .io)
    | some drafted =>
      match moveDraft name saved.bytes drafted with
      | none => (.holds drafted, .error .io)
      | some entries => (.holds entries, .ok ())

end StateStore

end Rota
