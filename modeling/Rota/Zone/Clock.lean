/-!
# The clock of a zone

A zone is known here by two questions, both in whole seconds from 1970-01-01T00:00:00: the offset
that holds at an instant, and the earliest instant at which the zone's wall clock shows a reading.

* `ZoneClock`              the two answers;
* `ZoneClock.fixed`        a zone with one offset;
* `ZoneClock.ofChanges`    a zone whose offset changes at given instants.

A reading that two instants show (the clock was set back) belongs to the earlier one.  A reading
that none shows (the clock was set forward over it) belongs to no instant.
-/

namespace Rota

/-- how the wall clock of a zone and the instants belong together -/
structure ZoneClock where
  offset : Int → Int
  /-- the earliest instant at which the wall clock shows this reading -/
  earliest? : Int → Option Int

structure OffsetChange where
  since : Int
  offset : Int
deriving DecidableEq, Repr

namespace ZoneClock

def fixed (offset : Int) : ZoneClock where
  offset _ := offset
  earliest? w := some (w - offset)

def offsetAfter (offset : Int) : List OffsetChange → Int → Int
  | [], _ => offset
  | c :: cs, t => if t < c.since then offset else offsetAfter c.offset cs t

/-- the earliest instant from `start` on (from ever, if there is none) that shows the reading `w`,
when `offset` holds until the first of the changes -/
def earliestFrom? (start : Option Int) (offset : Int) : List OffsetChange → Int → Option Int
  | [], w => if start.all (· ≤ w - offset) then some (w - offset) else none
  | c :: cs, w =>
    if start.all (· ≤ w - offset) ∧ w - offset < c.since then some (w - offset)
    else earliestFrom? (some c.since) c.offset cs w

/-- the zone that starts with an offset and changes it at the given instants, in their order -/
def ofChanges (offset : Int) (changes : List OffsetChange) : ZoneClock where
  offset := offsetAfter offset changes
  earliest? := earliestFrom? none offset changes

/-! ## small laws -/

theorem fixed_offset (o t : Int) : (fixed o).offset t = o := rfl

theorem fixed_earliest? (o w : Int) : (fixed o).earliest? w = some (w - o) := rfl

theorem ofChanges_nil (o : Int) : ofChanges o [] = fixed o := by
  simp [ofChanges, fixed, earliestFrom?, offsetAfter]

end ZoneClock

end Rota
