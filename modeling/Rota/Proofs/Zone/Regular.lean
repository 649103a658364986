import Rota.Calendar.Moment
import Rota.Zone.Clock
import Mathlib.Tactic.ByContra

/-!
# Regular zones

What the search for slots needs to know about a zone.  The offset is less than a day, its changes
are at least three days apart, and near the ends of the calendar there are none.  The clock is never
set forward by more than a day.  The laws of all zones are the fields of one structure:

* `ZoneClock.reading`        what the wall clock shows at an instant;
* `ZoneClock.Regular`        the laws;
* `ZoneClock.Faithful`, `ZoneClock.Orderly`   the part of them that some results can do with;
* `Orderly.earliest_le`      a reading that is no later than the one at `a` comes before `a`;
* `Orderly.earliest_lt`      readings come in their order;
* `ZoneClock.Skips`          the clock is set forward over a reading;
* `Skips.reading_after`, `Skips.reading_before`   the readings around the ones that are skipped.

All times are in seconds.
-/

namespace Rota

namespace ZoneClock

def reading (z : ZoneClock) (t : Int) : Int := t + z.offset t

/-- changes of the clock are this far apart, or further -/
def spacing : Int := 259200

/-- the laws of a zone -/
structure Regular (z : ZoneClock) : Prop where
  offset_gt : ∀ t, -secondsPerDay < z.offset t
  offset_lt : ∀ t, z.offset t < secondsPerDay
  shows : ∀ {w p}, z.earliest? w = some p → z.reading p = w
  found : ∀ t, ∃ p, z.earliest? (z.reading t) = some p ∧ p ≤ t
  /-- the clock is set forward by a day at the most -/
  jump_le : ∀ t, z.offset (t + 1) ≤ z.offset t + secondsPerDay
  /-- of three instants close to each other two neighbours have one offset -/
  sparse : ∀ {a b c}, a ≤ b → b ≤ c → c ≤ a + spacing →
    z.offset a = z.offset b ∨ z.offset b = z.offset c
  settled_first : ∀ {t}, t ≤ Calendar.firstSecond + spacing →
    z.offset t = z.offset Calendar.firstSecond
  settled_last : ∀ {t}, Calendar.lastSecond - spacing ≤ t →
    z.offset t = z.offset Calendar.lastSecond

/-- what every zone promises: the offset is less than a day, and the instant that is found for a
reading shows it -/
structure Faithful (z : ZoneClock) : Prop where
  offset_gt : ∀ t, -secondsPerDay < z.offset t
  offset_lt : ∀ t, z.offset t < secondsPerDay
  shows : ∀ {w p}, z.earliest? w = some p → z.reading p = w

/-- the laws from which the order of readings follows -/
structure Orderly (z : ZoneClock) : Prop extends Faithful z where
  found : ∀ t, ∃ p, z.earliest? (z.reading t) = some p ∧ p ≤ t
  sparse : ∀ {a b c}, a ≤ b → b ≤ c → c ≤ a + spacing →
    z.offset a = z.offset b ∨ z.offset b = z.offset c

theorem Regular.orderly {z : ZoneClock} (hz : z.Regular) : z.Orderly :=
  ⟨⟨hz.offset_gt, hz.offset_lt, hz.shows⟩, hz.found, hz.sparse⟩

theorem Regular.faithful {z : ZoneClock} (hz : z.Regular) : z.Faithful := hz.orderly.toFaithful

theorem Faithful.offset_bounds {z : ZoneClock} (hz : z.Faithful) (t : Int) :
    -86400 < z.offset t ∧ z.offset t < 86400 := ⟨hz.offset_gt t, hz.offset_lt t⟩

theorem Regular.offset_bounds {z : ZoneClock} (hz : z.Regular) (t : Int) :
    -86400 < z.offset t ∧ z.offset t < 86400 := hz.orderly.offset_bounds t

/-! ## the order of readings -/

section
variable {z : ZoneClock}

theorem exists_crossing {a b w : Int} (hab : a ≤ b) (ha : z.reading a < w)
    (hb : w ≤ z.reading b) : ∃ t, a ≤ t ∧ t < b ∧ z.reading t < w ∧ w ≤ z.reading (t + 1) := by
  obtain ⟨k, rfl⟩ : ∃ k : Nat, b = a + k := ⟨(b - a).toNat, by omega⟩
  induction k with
  | zero =>
    have hb' : w ≤ z.reading a := by simpa using hb
    omega
  | succ k ih =>
    rw [Int.natCast_add_one, ← Int.add_assoc] at hb
    by_cases h : w ≤ z.reading (a + k)
    · obtain ⟨t, h0, h1, ht⟩ := ih (by omega) h
      exact ⟨t, h0, by omega, ht⟩
    · exact ⟨a + k, by omega, by omega, by omega, hb⟩

variable (hz : z.Orderly)
include hz

theorem Orderly.earliest_le_of_reading {w p t : Int} (hp : z.earliest? w = some p)
    (ht : z.reading t = w) : p ≤ t := by
  obtain ⟨q, hq, hle⟩ := hz.found t
  rw [ht, hp, Option.some.injEq] at hq
  rwa [hq]

/-- before the clock is set back, it shows every reading of the time before -/
theorem Orderly.reading_of_setBack {a b w : Int} (hab : a ≤ b) (hback : z.reading b < z.reading a)
    (hw : w ≤ z.reading a) (hnear : b ≤ w - z.offset a + spacing) :
    z.reading (w - z.offset a) = w := by
  unfold reading at *
  have hx : z.offset (w - z.offset a) = z.offset a ∨ z.offset a = z.offset b :=
    hz.sparse (by omega) hab hnear
  omega

/-- a reading that is no later than the one at `a` is shown no later than at `a` -/
theorem Orderly.earliest_le {w p a : Int} (hp : z.earliest? w = some p) (ha : w ≤ z.reading a) :
    p ≤ a := by
  have hpr := hz.shows hp
  by_contra hlt
  have hne : w ≠ z.reading a := fun e => hlt (hz.earliest_le_of_reading hp e.symm)
  have ho := hz.offset_bounds a
  have ho' := hz.offset_bounds p
  -- the instant that would show the reading if the offset at `a` had held long before
  have hx : z.reading (w - z.offset a) = w := by
    refine hz.reading_of_setBack (b := p) (by omega) (by omega) ha ?_
    unfold reading at hpr
    unfold spacing
    omega
  have hle := hz.earliest_le_of_reading hp hx
  unfold reading at ha
  omega

theorem Orderly.earliest_lt {v w p q : Int} (hvw : v < w) (hp : z.earliest? v = some p)
    (hq : z.earliest? w = some q) : p < q := by
  have hpr := hz.shows hp
  have hqr := hz.shows hq
  have hle := hz.earliest_le hp (a := q) (by omega)
  have hne : p ≠ q := by
    rintro rfl
    omega
  omega

end

/-! ## readings that are skipped -/

/-- between `t` and the next second the clock is set forward over the reading `w` -/
structure Skips (z : ZoneClock) (w t : Int) : Prop where
  before : z.reading t < w
  after : w < z.reading (t + 1)

section
variable {z : ZoneClock} {w t : Int}

theorem Skips.offset_lt (hs : z.Skips w t) : z.offset t < z.offset (t + 1) := by
  have h0 := hs.before
  have h1 := hs.after
  unfold reading at h0 h1
  omega

section
variable (hz : z.Orderly)
include hz

theorem Orderly.exists_skips (hw : z.earliest? w = none) :
    ∃ t, w - 86400 ≤ t ∧ t < w + 86400 ∧ z.Skips w t := by
  have ho := hz.offset_bounds (w - 86400)
  have ho' := hz.offset_bounds (w + 86400)
  obtain ⟨t, h0, h1, hlt, hle⟩ := exists_crossing (z := z) (w := w) (a := w - 86400)
    (b := w + 86400) (by omega) (by unfold reading; omega) (by unfold reading; omega)
  refine ⟨t, h0, h1, hlt, ?_⟩
  have hne : z.reading (t + 1) ≠ w := by
    intro e
    obtain ⟨p, hp, -⟩ := hz.found (t + 1)
    rw [e, hw] at hp
    simp at hp
  omega

variable (hs : z.Skips w t)
include hs

theorem Skips.offset_after {u : Int} (h0 : t + 1 ≤ u) (h1 : u ≤ t + spacing) :
    z.offset u = z.offset (t + 1) := by
  have hlt := hs.offset_lt
  rcases hz.sparse (a := t) (by omega) h0 h1 with e | e
  · omega
  · exact e.symm

theorem Skips.offset_before {u : Int} (h0 : t + 1 ≤ u + spacing) (h1 : u ≤ t) :
    z.offset u = z.offset t := by
  have hlt := hs.offset_lt
  rcases hz.sparse (c := t + 1) h1 (by omega) h0 with e | e
  · exact e
  · omega

theorem Skips.reading_after {v : Int} (h0 : z.reading (t + 1) ≤ v)
    (h1 : v < z.reading (t + 1) + spacing) :
    z.reading (v - z.offset (t + 1)) = v := by
  have hu := hs.offset_after hz (u := v - z.offset (t + 1))
  unfold reading at *
  rw [hu (by omega) (by omega)]
  omega

theorem Skips.reading_before {v : Int} (h0 : z.reading t < v + spacing) (h1 : v ≤ z.reading t) :
    z.reading (v - z.offset t) = v := by
  have hu := hs.offset_before hz (u := v - z.offset t)
  unfold reading at *
  rw [hu (by omega) (by omega)]
  omega

end

variable (hz : z.Regular) (hs : z.Skips w t)
include hz hs

theorem Skips.interior :
    Calendar.firstSecond + spacing ≤ t ∧ t < Calendar.lastSecond - spacing := by
  have hlt := hs.offset_lt
  constructor
  · by_contra h
    have e := hz.settled_first (t := t) (by omega)
    have e' := hz.settled_first (t := t + 1) (by omega)
    omega
  · by_contra h
    have e := hz.settled_last (t := t) (by omega)
    have e' := hz.settled_last (t := t + 1) (by omega)
    omega

theorem Skips.reading_le : z.reading (t + 1) ≤ w + 86400 := by
  have h0 := hs.before
  have hj : z.offset (t + 1) ≤ z.offset t + 86400 := hz.jump_le t
  unfold reading at *
  omega

end

end ZoneClock

end Rota
