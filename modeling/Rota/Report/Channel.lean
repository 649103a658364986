import Rota.Report.Basic

/-!
# The report channel

Modules put reports into a queue with room for a bounded number.  A sender that finds no room waits.
When a report is taken out, the place goes to the sender that has waited longest.

* `Channel.open?`     a new channel, if it is not to have too many places;
* `Channel.send`      a report from a sender: it enters, the sender waits, or the channel is closed;
* `Channel.receive?`  takes the first report out and grants its place;
* `Channel.enter?`    a sender uses the place that it was granted;
* `Channel.close`     nobody takes reports any more: what is queued is lost.
-/

namespace Rota

structure Channel where
  capacity : Nat
  queue : List Report := []
  /-- senders that have a place and did not use it yet, with their reports -/
  granted : List (Nat × Report) := []
  /-- senders that wait for a place, with their reports, the longest one first -/
  waiting : List (Nat × Report) := []
  isOpen : Bool := true

/-- what becomes of a report that is sent -/
inductive SendResult where
  | accepted
  | waits
  | closed
deriving DecidableEq, Repr

namespace Channel

def ofCapacity (n : Nat) : Channel := { capacity := max n 1 }

/-- no channel has more places than fit in a word without its three upper bits -/
def mostPlaces : Nat := 18446744073709551615 / 8

/-- a new channel; asking for too many places is a panic -/
def open? (n : Nat) : Option Channel :=
  if max n 1 ≤ mostPlaces then some (ofCapacity n) else none

def hasRoom (c : Channel) : Bool := decide (c.queue.length + c.granted.length < c.capacity)

def send (c : Channel) (sender : Nat) (r : Report) : Channel × SendResult :=
  if !c.isOpen then (c, .closed)
  else if c.hasRoom then ({ c with queue := c.queue ++ [r] }, .accepted)
  else ({ c with waiting := c.waiting ++ [(sender, r)] }, .waits)

/-- gives a free place to the sender that has waited longest, and tells which one that is -/
def grant (c : Channel) : Channel × Option Nat :=
  match c.waiting with
  | [] => (c, none)
  | w :: rest => ({ c with granted := c.granted ++ [w], waiting := rest }, some w.1)

def receive? (c : Channel) : Option (Report × Channel × Option Nat) :=
  match c.queue with
  | [] => none
  | r :: rest => some (r, grant { c with queue := rest })

/-- a sender puts its report into the place that it was granted -/
def enter? (c : Channel) (sender : Nat) : Option Channel :=
  (c.granted.lookup sender).map fun r =>
    { c with granted := c.granted.filter fun g => g.1 ≠ sender, queue := c.queue ++ [r] }

def close (c : Channel) : Channel × List Nat :=
  ({ c with queue := [], granted := [], waiting := [], isOpen := false }, c.waiting.map (·.1))

end Channel

end Rota
