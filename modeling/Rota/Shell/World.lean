import Rota.Program.Disk

/-!
# What shells share

Shells and the programs that they start share a clock, files, and the channels between them.  What
is written goes into a sink, from which it can be read when the writer is done.

* `Sink`      what was written, when, and by which process;
* `Source`    what is still to be read, and when it is there;
* `Handle`    where a channel leads;
* `World`     all of it, and the signals that are on their way.

Several processes may write to one sink: what was written earlier comes first.
-/

namespace Rota.Shell

open Text Program

structure Chunk where
  time : Nat
  process : Nat
  text : Raw

def never : Nat := 1000000000000000000

structure Sink where
  chunks : List Chunk := []
  tail : Tail := .ends
  /-- until when processes keep it open -/
  holders : List (Nat × Nat) := []

namespace Sink

def sorted (s : Sink) : List Chunk :=
  s.chunks.reverse.mergeSort fun a b => decide (a.time ≤ b.time)

def text (s : Sink) : Raw := (s.sorted.map Chunk.text).flatten

def arrivals (s : Sink) : List (Nat × Nat) :=
  let rec go (n : Nat) : List Chunk → List (Nat × Nat)
    | [] => []
    | c :: cs => (c.time, n + c.text.length) :: go (n + c.text.length) cs
  go 0 s.sorted

def isEmpty (s : Sink) : Bool := s.chunks.all fun c => c.text.isEmpty

def writtenAfter (s : Sink) (process time : Nat) : Option Nat :=
  (s.sorted.find? fun c => c.process = process && decide (time < c.time)).map Chunk.time

/-- until when some process keeps it open -/
def heldUntil (s : Sink) : Nat := (s.holders.map (·.2)).foldl max 0

def cutProcess (s : Sink) (process time : Nat) : Sink :=
  { s with
    chunks := s.chunks.filter fun c => c.process != process || decide (c.time ≤ time)
    holders := s.holders.map fun h => if h.1 = process then (h.1, min h.2 time) else h }

/-- without what some processes write after a moment, and with those ended at it that would never
end -/
def cutProcesses (s : Sink) (isMeant : Nat → Bool) (time : Nat) : Sink where
  chunks := s.chunks.filter fun c => !isMeant c.process || decide (c.time ≤ time)
  tail := s.tail
  holders := s.holders.map fun h =>
    if isMeant h.1 && decide (never ≤ h.2) then (h.1, time) else h

end Sink

structure Source where
  stream : Except FileFault Stream
  /-- whether what was read too much can be given back -/
  isFile : Bool := false
  taken : Nat := 0
  /-- when how many bytes are there, in order of time; nothing is waited for if it is empty -/
  arrivals : List (Nat × Nat) := []
  endsAt : Nat := 0

namespace Source

def timeOf (s : Source) (n : Nat) : Nat :=
  if n = 0 then 0
  else
    match s.arrivals.find? fun a => decide (n ≤ a.2) with
    | some a => a.1
    | none => s.endsAt

/-- how many bytes are there at a moment, if not all of them are -/
def countAt (s : Source) (time : Nat) : Option Nat :=
  match s.arrivals.filter fun a => decide (time < a.1) with
  | [] => none
  | _ => some (((s.arrivals.filter fun a => decide (a.1 ≤ time)).getLast?.map (·.2)).getD 0)

def leave (s : Source) (time : Nat) (l : Leftover) (taken : Nat) : Source :=
  let ahead :=
    if s.isFile then 0
    else
      match s.countAt time with
      | some n => min l.ahead (n - taken)
      | none => l.ahead
  { s with stream := .ok (l.stream.dropOf ahead), taken := taken + ahead }

end Source

inductive Handle where
  | null
  | zeros
  | full
  | reads (source : Nat)
  | writes (sink : Nat)
deriving DecidableEq, Repr

inductive Ending where
  | exits (status : Nat)
  | killed (signal : Nat)
  | endless
deriving DecidableEq, Repr

namespace Ending

def status : Ending → Nat
  | .exits n => n
  | .killed s => 128 + s
  | .endless => 0

end Ending

structure World where
  clock : Nat := 0
  deadline : Nat := never
  sinks : Array Sink := #[]
  sources : Array Source := #[]
  disk : Disk := {}
  processes : Nat := 1
  signals : List (Nat × Nat) := []

namespace World

def addSink (w : World) : World × Nat :=
  ({ w with sinks := w.sinks.push {} }, w.sinks.size)

def addSource (w : World) (s : Source) : World × Nat :=
  ({ w with sources := w.sources.push s }, w.sources.size)

def sink (w : World) (n : Nat) : Sink := w.sinks.getD n {}

def changeSink (w : World) (n : Nat) (f : Sink → Sink) : World :=
  { w with sinks := w.sinks.modify n f }

def pass (w : World) (micros : Nat) : World := { w with clock := w.clock + micros }

/-- writes to where a channel leads; nothing that a process writes later has the same time -/
def write (w : World) (process : Nat) (h : Handle) (r : Raw) : Except FileFault World :=
  match h with
  | .null => .ok w
  | .zeros => .ok w
  | .full => .error .noSpace
  | .reads _ => .error .badDescriptor
  | .writes n =>
    .ok ((w.changeSink n fun s => { s with chunks := ⟨w.clock, process, r⟩ :: s.chunks }).pass 1)

def source (w : World) (h : Handle) : Source :=
  match h with
  | .null => { stream := .ok {} }
  | .zeros => { stream := .ok ⟨[], .repeats ['\x00']⟩ }
  | .full => { stream := .ok ⟨[], .repeats ['\x00']⟩ }
  | .writes _ => { stream := .error .badDescriptor }
  | .reads n => w.sources.getD n { stream := .error .badDescriptor }

/-- leaves the rest of what was read; who reads waits until it is there -/
def leave (w : World) (h : Handle) (l : Leftover) : World :=
  match h with
  | .reads n =>
    let s := w.source h
    match s.stream with
    | .error _ => w
    | .ok old =>
      let taken := s.taken + (old.text.length - l.stream.text.length)
      let clock := max w.clock (if l.sawEnd then s.endsAt else s.timeOf taken)
      { w with
        clock := clock
        sources := w.sources.modify n fun s => s.leave clock l taken }
  | _ => w

def waitFor (w : World) (time : Nat) : World := { w with clock := max w.clock time }

def hold (w : World) (process time : Nat) (handles : List Handle) : World :=
  handles.foldl
    (fun w h =>
      match h with
      | .writes n => w.changeSink n fun s => { s with holders := (process, time) :: s.holders }
      | _ => w)
    w

/-- what a file holds for a process with some channels -/
def content (w : World) (channels : List (Nat × Handle)) (path : Raw) :
    Except FileFault (Except FileFault Stream) :=
  match w.disk.find path with
  | .error f => .error f
  | .ok n =>
    match n with
    | .directory => .ok (.error .isDirectory)
    | .terminal => .error .noDevice
    | .null => .ok (.ok {})
    | .zero => .ok (w.source .zeros).stream
    | .full => .ok (w.source .full).stream
    | .program _ => .ok (.ok {})
    | .file => .ok (.ok {})
    | .written k => .ok (.ok ⟨(w.sink k).text, .ends⟩)
    | .channel n =>
      match channels.lookup n with
      | some h => .ok (w.source h).stream
      | none => .error .missing

/-! ## small laws -/

end World

end Rota.Shell
