import Rota.Text.Numeral
import Rota.Text.Raw

/-!
# Signals

* `Signal.names`     the names of signals, by number; the end of a shell counts as signal 0;
* `Signal.ofText?`   the signal of a number or a name;
* `Signal.Effect`    what a signal does to a process that does not expect it;
* `Signal.text`      what is said about a process that a signal ended.
-/

namespace Rota.Shell.Signal

open Text

def names : List (String × String) :=
  [("EXIT", ""), ("HUP", "Hangup"), ("INT", "Interrupt"), ("QUIT", "Quit"),
   ("ILL", "Illegal instruction"), ("TRAP", "Trace/breakpoint trap"), ("ABRT", "Aborted"),
   ("BUS", "Bus error"), ("FPE", "Floating point exception"), ("KILL", "Killed"),
   ("USR1", "User defined signal 1"), ("SEGV", "Segmentation fault"),
   ("USR2", "User defined signal 2"), ("PIPE", "Broken pipe"), ("ALRM", "Alarm clock"),
   ("TERM", "Terminated"), ("STKFLT", "Stack fault"), ("CHLD", "Child exited"),
   ("CONT", "Continued"), ("STOP", "Stopped (signal)"), ("TSTP", "Stopped"),
   ("TTIN", "Stopped (tty input)"), ("TTOU", "Stopped (tty output)"),
   ("URG", "Urgent I/O condition"), ("XCPU", "CPU time limit exceeded"),
   ("XFSZ", "File size limit exceeded"), ("VTALRM", "Virtual timer expired"),
   ("PROF", "Profiling timer expired"), ("WINCH", "Window changed"), ("IO", "I/O possible"),
   ("PWR", "Power failure"), ("SYS", "Bad system call")]

def count : Nat := 65

def firstRealTime : Nat := 34

def name (n : Nat) : Raw :=
  match names[n]? with
  | some (s, _) => raw s
  | none =>
    if n < firstRealTime then Numeral.text n
    else if n = count - 1 then raw "RTMAX"
    else if n = firstRealTime then raw "RTMIN"
    else if n < firstRealTime + 16 then raw "RTMIN+" ++ Numeral.text (n - firstRealTime)
    else raw "RTMAX-" ++ Numeral.text (count - 1 - n)

def text (n : Nat) : Raw :=
  match names[n]? with
  | some (_, s) => raw s
  | none =>
    if n < firstRealTime then raw "Unknown signal " ++ Numeral.text n
    else raw "Real-time signal " ++ Numeral.text (n - firstRealTime)

def ofNumber? (r : Raw) : Option Nat :=
  if Numeral.isNumeral r ∧ Numeral.value r < count then some (Numeral.value r) else none

/-- the signal of a number, or of a name; `least` is the first signal that has a name there -/
def ofText? (least : Nat) (r : Raw) : Option Nat :=
  match ofNumber? r with
  | some n => some n
  | none =>
    let upper := r.map Char.toUpper
    (List.range count).find? fun n => decide (least ≤ n) && name n = upper

/-- what a signal does to a process that does not expect it -/
inductive Effect where
  | nothing
  | ends
  | halts
deriving DecidableEq, Repr

def effect (n : Nat) : Effect :=
  if n = 0 ∨ n = 17 ∨ n = 18 ∨ n = 23 ∨ n = 28 then .nothing
  else if 19 ≤ n ∧ n ≤ 22 then .halts
  else .ends

def kill : Nat := 9

def stop : Nat := 19

def overflow : Nat := 11

/-- the signal of a key, and that of a pipe that nobody reads: they are not talked about -/
def isSilent (n : Nat) : Bool := n = 2 || n = 13

/-! ## small laws -/

end Rota.Shell.Signal
