import Rota.Program.Tool

/-!
# Files

A path leads from directory to directory to a node: a directory, a program, a device, or a file.

* `Node`            what a path can lead to;
* `Disk`            the directory where relative paths begin, and the files that were written;
* `Disk.find`       what a path leads to, or why it leads nowhere;

Names that a system always has are known; there are no others unless they were written.
-/

namespace Rota.Program

open Text

inductive Node where
  | directory
  | program (t : Tool)
  | null
  | zero
  | full
  | terminal
  /-- a channel of whoever opens it -/
  | channel (n : Nat)
  | file
  | written (n : Nat)
deriving DecidableEq, Repr

structure Disk where
  home : List Raw := [raw "srv", raw "agent"]
  files : List (List Raw × Nat) := []

namespace Disk

def names (r : Raw) : List Raw := (Raw.splitOn '/' r).filter (· ≠ [])

def directories : List (List Raw) :=
  (["", "/boot", "/dev", "/dev/pts", "/dev/shm", "/dev/mqueue", "/dev/fd", "/etc", "/home",
    "/media", "/mnt", "/opt", "/proc", "/root", "/run", "/run/lock", "/srv", "/srv/agent",
    "/sys", "/tmp", "/usr", "/usr/bin", "/usr/games", "/usr/include", "/usr/lib", "/usr/lib64",
    "/usr/libexec", "/usr/local", "/usr/local/bin", "/usr/local/etc", "/usr/local/games",
    "/usr/local/include", "/usr/local/lib", "/usr/local/sbin", "/usr/local/share",
    "/usr/local/src", "/usr/sbin", "/usr/share", "/usr/src", "/var", "/var/backups",
    "/var/cache", "/var/lib", "/var/local", "/var/log", "/var/mail", "/var/opt", "/var/spool",
    "/var/tmp"]).map fun s => names (raw s)

def links : List (List Raw × List Raw) :=
  ([("/bin", "/usr/bin"), ("/lib", "/usr/lib"), ("/lib64", "/usr/lib64"), ("/sbin", "/usr/sbin"),
    ("/var/run", "/run"), ("/var/lock", "/run/lock")]).map fun l =>
      (names (raw l.1), names (raw l.2))

def nodes : List (List Raw × Node) :=
  ([("/dev/null", .null), ("/dev/zero", .zero), ("/dev/full", .full), ("/dev/tty", .terminal),
    ("/dev/stdin", .channel 0), ("/dev/stdout", .channel 1), ("/dev/stderr", .channel 2),
    ("/dev/random", .file), ("/dev/urandom", .file), ("/etc/passwd", .file), ("/etc/group", .file),
    ("/etc/hosts", .file), ("/etc/hostname", .file), ("/etc/resolv.conf", .file),
    ("/etc/fstab", .file), ("/etc/profile", .file), ("/etc/shadow", .file),
    ("/etc/os-release", .file), ("/etc/debian_version", .file), ("/proc/version", .file),
    ("/proc/cpuinfo", .file), ("/proc/meminfo", .file)]).map fun n => (names (raw n.1), n.2)

def programs : List Raw := [raw "usr", raw "bin"]

def nodeAt (d : Disk) (way : List Raw) : Option Node :=
  if way ∈ directories then some .directory
  else
    match d.files.lookup way, nodes.lookup way with
    | some n, _ => some (.written n)
    | none, some n => some n
    | none, none =>
      match way.getLast? with
      | some name =>
        if way.dropLast = programs then (Tool.ofName? name).map .program
        else if way.dropLast = [raw "dev", raw "fd"] ∧ name.all Char.isDigit then
          some (.channel (Radix.value 10 name))
        else none
      | none => none

def longestName : Nat := 255

def longestPath : Nat := 4096

def walk (d : Disk) (way : List Raw) : List Raw → Except FileFault (List Raw × Node)
  | [] => .ok (way, .directory)
  | name :: rest =>
    if name = ['.'] then d.walk way rest
    else if name = ['.', '.'] then d.walk way.dropLast rest
    else if longestName < name.length then .error .nameTooLong
    else
      let next := (links.lookup (way ++ [name])).getD (way ++ [name])
      match d.nodeAt next with
      | none => .error .missing
      | some .directory => d.walk next rest
      | some n => if rest = [] then .ok (next, n) else .error .notDirectory

def start (d : Disk) (path : Raw) : List Raw := if path.head? = some '/' then [] else d.home

/-- the way from the root and the node that a path leads to -/
def resolve (d : Disk) (path : Raw) : Except FileFault (List Raw × Node) :=
  if path = [] then .error .missing
  else if longestPath ≤ path.length then .error .nameTooLong
  else
    match d.walk (d.start path) (names path) with
    | .ok (way, n) =>
      if path.getLast? = some '/' ∧ n ≠ .directory then .error .notDirectory else .ok (way, n)
    | .error f => .error f

def find (d : Disk) (path : Raw) : Except FileFault Node := (d.resolve path).map (·.2)

def place (d : Disk) (path : Raw) : Except FileFault (List Raw) :=
  if path.getLast? = some '/' then .error .isDirectory
  else if longestPath ≤ path.length then .error .nameTooLong
  else
    match (names path).getLast? with
    | none => .error .missing
    | some name =>
      match d.walk (d.start path) (names path).dropLast with
      | .error f => .error f
      | .ok (_, .directory) =>
        if longestName < name.length then .error .nameTooLong
        else (d.walk (d.start path) (names path).dropLast).map (·.1 ++ [name])
      | .ok _ => .error .notDirectory

def standardSearch : Raw := raw "/usr/local/sbin:/usr/local/bin:/usr/sbin:/usr/bin:/sbin:/bin"

def within (dir name : Raw) : Raw := if dir = [] then name else dir ++ '/' :: name

def programAt (d : Disk) (path : Raw) : Except FileFault Tool :=
  match d.find path with
  | .ok (.program t) => .ok t
  | .ok _ => .error .denied
  | .error f => .error f

/-- the program that is found first; where none is, a program that may not be started is told, and
a name that is too long ends the search -/
def search (d : Disk) (name : Raw) (denied : Bool) : List Raw → Except FileFault Tool
  | [] => .error (if denied then .denied else .missing)
  | dir :: dirs =>
    match d.programAt (within dir name) with
    | .ok t => .ok t
    | .error .denied => d.search name true dirs
    | .error .nameTooLong => .error .nameTooLong
    | .error _ => d.search name denied dirs

def program (d : Disk) (directories name : Raw) : Except FileFault Tool :=
  if name = [] then .error .missing
  else if name.contains '/' then d.programAt name
  else d.search name false (Raw.splitOn ':' directories)

/-! ## small laws -/

end Disk

end Rota.Program
