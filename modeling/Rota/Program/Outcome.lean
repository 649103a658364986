import Rota.Program.Stream

/-!
# Outcomes of tools

A tool reads its input, writes to two channels, and ends with a status, or does not end.

* `Outlet`          standard output and standard error;
* `Outcome`         what a tool leaves behind;
* `Leftover`        what it leaves of its input;
* `Input`           what a tool can read: its standard input and files by name;
* `FileFault`       why something cannot be read or written.
-/

namespace Rota.Program

open Text

inductive Outlet where
  | output
  | errors
deriving DecidableEq, Repr

inductive FileFault where
  | missing
  | denied
  | notDirectory
  | isDirectory
  | nameTooLong
  | noDevice
  | badDescriptor
  | closed
  | noSpace
  | exists
deriving DecidableEq, Repr

namespace FileFault

def text : FileFault → String
  | .missing => "No such file or directory"
  | .denied => "Permission denied"
  | .notDirectory => "Not a directory"
  | .isDirectory => "Is a directory"
  | .nameTooLong => "File name too long"
  | .noDevice => "No such device or address"
  | .badDescriptor => "Bad file descriptor"
  | .closed => "Bad file descriptor"
  | .noSpace => "No space left on device"
  | .exists => "File exists"

def number : FileFault → Nat
  | .missing => 2
  | .denied => 13
  | .notDirectory => 20
  | .isDirectory => 21
  | .nameTooLong => 36
  | .noDevice => 6
  | .badDescriptor => 9
  | .closed => 9
  | .noSpace => 28
  | .exists => 17

end FileFault

structure Input where
  stdin : Except FileFault Stream := .ok {}
  /-- whether the standard input gets back what was read too much -/
  takesBack : Bool := false
  file : Raw → Except FileFault (Except FileFault Stream) := fun _ => .error .missing

def Input.isClosed (i : Input) : Bool :=
  match i.stdin with
  | .error .closed => true
  | _ => false

/-- what is left of an input -/
structure Leftover where
  stream : Stream
  sawEnd : Bool
  /-- as many bytes more may have been read, for they are read in blocks; a file gets them back -/
  ahead : Nat := 0
deriving DecidableEq, Repr

/-- what a tool leaves behind -/
structure Outcome where
  status : Nat := 0
  writes : List (Outlet × Raw) := []
  /-- how its output goes on if it does not end -/
  tail : Tail := .ends
  left : Option Leftover := none
  micros : Nat := 0

namespace Outcome

def printed (r : Raw) : Outcome := { writes := [(.output, r)] }

def complaint (status : Nat) (message : Raw) : Outcome :=
  { status := status, writes := [(.errors, message)] }

end Outcome

def tryHelp (tool : String) : Raw :=
  rawLine [raw "Try '", raw tool, raw " --help' for more information."]

end Rota.Program
