import Rota.Shell.Expansion

/-!
# Redirections

* `Redirection.openFile`   where a file leads that is opened;
* `Redirection.apply`      lets a channel lead elsewhere;
* `guarded`                runs steps and then changes the state, however they end.

A file that cannot be opened is a fault.
-/

namespace Rota.Shell

open Text Program

/-- runs steps and then changes the state by the one before them, however they end -/
def guarded {α : Type} (after : State → State → State) (act : Act α) : Act α := fun s =>
  match act s with
  | .ok a t => .ok a (after s t)
  | .error e t => .error e (after s t)

def withChannels {α : Type} (act : Act α) : Act α :=
  guarded (fun s t => { t with channels := s.channels }) act

namespace Redirection

def cannot {α : Type} (mode : FileMode) (path : Raw) (f : FileFault) : Act α :=
  let isAbsent := f = .missing || f = .notDirectory
  if mode = .read then
    Act.fail (raw "cannot open " ++ path ++ raw ": "
      ++ raw (if isAbsent then "No such file" else f.text))
  else
    Act.fail (raw "cannot create " ++ path ++ raw ": "
      ++ raw (if isAbsent then "Directory nonexistent" else f.text))

def reader (stream : Except FileFault Stream) (isFile : Bool) : Act Handle := do
  let s ← get
  let (w, n) := s.world.addSource { stream := stream, isFile := isFile }
  set { s with world := w }
  return .reads n

def newFile (way : List Raw) : Act Handle := do
  let s ← get
  let (w, n) := s.world.addSink
  set { s with world := { w with disk := { w.disk with files := (way, n) :: w.disk.files } } }
  return .writes n

def openFile (mode : FileMode) (path : Raw) : Act Handle := do
  let s ← get
  match s.world.disk.resolve path with
  | .error .missing =>
    if mode = .read then cannot mode path .missing
    else
      match s.world.disk.place path with
      | .ok way => newFile way
      | .error f => cannot mode path f
  | .error f => cannot mode path f
  | .ok (way, node) =>
    let system : Act Handle :=
      if mode = .read then reader (.ok {}) true
      else if mode = .write && s.has 'C' then cannot mode path .exists
      else newFile way
    match node with
    | .null => return .null
    | .zero => return .zeros
    | .full => return .full
    | .terminal => cannot mode path .noDevice
    | .directory =>
      if mode = .read then reader (.error .isDirectory) true else cannot mode path .isDirectory
    | .program _ => system
    | .file => system
    | .channel n =>
      match s.channel? n with
      | some h => return h
      | none => cannot mode path .missing
    | .written n =>
      match mode with
      | .read => reader (.ok ⟨(s.world.sink n).text, .ends⟩) true
      | .append => return .writes n
      | .readWrite => return .writes n
      | .write =>
        if s.has 'C' then cannot mode path .exists
        else
          Act.world fun w => w.changeSink n fun _ => {}
          return .writes n
      | .replace =>
        Act.world fun w => w.changeSink n fun _ => {}
        return .writes n

section
variable (run : Runner)

def apply (r : Redirect) : Act Unit := do
  match r with
  | .file channel mode word =>
    let path ← Expansion.text run word
    let h ← openFile mode path
    modify fun s => s.setChannel channel (some h)
  | .copy channel word =>
    match ← Expansion.text run word with
    | ['-'] => modify fun s => s.setChannel channel none
    | [c] =>
      if c.isDigit then
        match (← get).channel? (c.toNat - 48) with
        | some h => modify fun s => s.setChannel channel (some h)
        | none => Act.fail (c :: raw ": Bad file descriptor")
      else Act.fail (raw "Syntax error: Bad fd number")
    | _ => Act.fail (raw "Syntax error: Bad fd number")
  | .document channel number =>
    let word := (← get).documents.getD number []
    let text := Expansion.bytes (← Expansion.cells run false Expansion.depth word)
    let h ← reader (.ok ⟨text, .ends⟩) false
    modify fun s => s.setChannel channel (some h)

def applyAll (rs : List Redirect) : Act Unit := rs.forM (apply run)

def succeeds (rs : List Redirect) : Act Bool := do
  let (_, stop) ← caught (do applyAll run rs; return 0)
  match stop with
  | none => return true
  | some .fails => return false
  | some stop => throw stop

end

end Redirection

end Rota.Shell
