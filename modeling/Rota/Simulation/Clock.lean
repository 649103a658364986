import Rota.Calendar.Moment

/-!
# The simulated clock

Time passes in whole milliseconds.  A wall clock starts at an origin, follows the time that passed,
and can be set forward or back on top of that.

* `SimClock.now`    what the wall clock reads;
* `SimClock.pass`   time passes;
* `SimClock.jump`   the wall clock is set, and no time passes.

A wall clock that leaves the calendar reads its last instant.
-/

namespace Rota

structure SimClock where
  origin : Moment
  elapsed : Nat := 0
  /-- by how many milliseconds the wall clock was set forward, all in all -/
  shift : Int := 0

namespace SimClock

def now (c : SimClock) : Moment :=
  (c.origin.add? (((c.elapsed : Int) + c.shift) * nanosPerMilli)).getD Moment.last

def pass (c : SimClock) (ms : Nat) : SimClock := { c with elapsed := c.elapsed + ms }

def jump (c : SimClock) (ms : Int) : SimClock := { c with shift := c.shift + ms }

/-! ## small laws -/

theorem pass_pass (c : SimClock) (a b : Nat) : (c.pass a).pass b = c.pass (a + b) := by
  simp [pass, Nat.add_assoc]

end SimClock

end Rota
