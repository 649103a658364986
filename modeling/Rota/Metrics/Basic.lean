import Rota.Assoc
import Rota.Calendar.Stamp
import Rota.Number.Shortest

/-!
# Metrics

* `Metrics`             counters, durations and next runs by module;
* `Metrics.countRun`    a finished run;
* `Metrics.setNextRun`  a next run;
* `Metrics.lines`       the lines in which the metrics are exposed, in order.

A duration counts in seconds.  The sum of durations is rounded at every addition, so that the order
of the additions shows: it is the order of `latestFirst`.  Two names that look alike in a line share
that line (`merged`).
-/

namespace Rota

structure ModuleMetrics where
  runs : Nat := 0
  failures : Nat := 0
  durations : List Nat := []
  nextRun : Option Int := none
deriving DecidableEq, Repr

structure Metrics where
  modules : List (String × ModuleMetrics) := []
deriving DecidableEq, Repr

/-- so many milliseconds in seconds: the whole seconds and the fraction, each rounded, added up -/
def secondsOfMs (ms : Nat) : Binary64 :=
  (Binary64.ofNat (ms / 1000)).add (.nearest false (ms % 1000 * 1000000) 1000000000)

namespace ModuleMetrics

def countRun (m : ModuleMetrics) (ms : Nat) (success : Bool) : ModuleMetrics :=
  { m with
    runs := m.runs + 1
    failures := if success then m.failures else m.failures + 1
    durations := m.durations ++ [ms] }

/-- durations are kept in blocks of this size -/
def blockSize : Nat := 64

/-- the durations block by block, the latest block first -/
def latestFirst (durations : List Nat) : List Nat :=
  if durations.length ≤ blockSize then durations
  else latestFirst (durations.drop blockSize) ++ durations.take blockSize
termination_by durations.length
decreasing_by simp only [List.length_drop, blockSize] at *; omega

def sumOf (durations : List Nat) : Binary64 :=
  durations.foldl (fun sum ms => sum.add (secondsOfMs ms)) (.zero false)

/-- two modules in one line: the durations of both, and of everything else the later one -/
def join (m n : ModuleMetrics) : ModuleMetrics where
  runs := if n.runs = 0 then m.runs else n.runs
  failures := if n.failures = 0 then m.failures else n.failures
  durations := m.durations ++ n.durations
  nextRun := n.nextRun.or m.nextRun

end ModuleMetrics

namespace Metrics

def update (name : String) (f : ModuleMetrics → ModuleMetrics) (l : List (String × ModuleMetrics)) :
    List (String × ModuleMetrics) :=
  Assoc.alter name (fun m => f (m.getD {})) l

def countRun (m : Metrics) (name : String) (ms : Nat) (success : Bool) : Metrics :=
  ⟨update name (·.countRun ms success) m.modules⟩

def setNextRun (m : Metrics) (name : String) (next : Stamp) : Metrics :=
  ⟨update name (fun x => { x with nextRun := some next.moment.seconds }) m.modules⟩

/-! ## the lines -/

/-- the name of a module inside quotes.  A backslash is held back (`held`) until it is known what
follows it: before a quote it counts as the escape of that quote, two of them count as one escaped
backslash, and any other one is doubled.  A line end does not release it. -/
def label (held : Bool) : List Char → List Char
  | [] => if held then ['\\', '\\'] else []
  | c :: cs =>
    if c = '\n' then '\\' :: 'n' :: label held cs
    else if c = '"' then '\\' :: '"' :: label false cs
    else if c = '\\' then (if held then ['\\', '\\'] else []) ++ label (!held) cs
    else (if held then ['\\', '\\'] else []) ++ c :: label false cs

def line (metric label value : String) : String :=
  metric ++ "\x7bmodule=\"" ++ label ++ "\"\x7d " ++ value

/-- the lines of a label, with the durations in the order in which they add up -/
def linesOf (label : String) (m : ModuleMetrics) : List String :=
  (if m.runs = 0 then []
   else
    [line "module_runs_total" label (toString m.runs),
     line "module_run_duration_seconds_sum" label (ModuleMetrics.sumOf m.durations).text,
     line "module_run_duration_seconds_count" label (toString m.durations.length)])
  ++ (if m.failures = 0 then [] else [line "module_failures_total" label (toString m.failures)])
  ++ (match m.nextRun with
    | none => []
    | some s => [line "module_next_run_timestamp_seconds" label (Binary64.ofInt s).text])

def merged (m : Metrics) : List (String × ModuleMetrics) :=
  m.modules.foldl
    (fun all e =>
      update (String.ofList (label false e.1.toList))
        (·.join { e.2 with durations := ModuleMetrics.latestFirst e.2.durations }) all)
    []

def lines (m : Metrics) : List String :=
  (m.merged.flatMap fun e => linesOf e.1 e.2).mergeSort fun a b => decide (a ≤ b)

end Metrics

end Rota
