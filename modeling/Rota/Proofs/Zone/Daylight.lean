import Rota.Proofs.Zone.Changes
import Mathlib.Data.Int.LeastGreatest
import Mathlib.Order.Bounds.Defs

/-!
# Zones with daylight saving

Most zones change their clock by an hour or two, and no more than a few times in a year.  Here the
changes are of three hours at the most and three days apart or more, at any time; the instant that is
found for a reading is the earliest one that shows it.

* `ZoneClock.Daylight`         these laws;
* `Daylight.orderly`           readings come in their order;
* `Regular.daylight`           regular zones without longer changes have daylight saving;
* `ofChanges_daylight`         and so have zones made of changes that pass two checks.
-/

namespace Rota

namespace ZoneClock

/-- the laws of a zone with daylight saving -/
structure Daylight (z : ZoneClock) : Prop where
  offset_gt : ∀ t, -secondsPerDay < z.offset t
  offset_lt : ∀ t, z.offset t < secondsPerDay
  change_le : ∀ t, z.offset (t + 1) ≤ z.offset t + 10800 ∧ z.offset t ≤ z.offset (t + 1) + 10800
  change_apart : ∀ {s t}, s < t → z.offset s ≠ z.offset (s + 1) → z.offset t ≠ z.offset (t + 1) →
    s + spacing ≤ t
  /-- for a reading the earliest instant is found that shows it, and none if no instant does -/
  earliest_iff : ∀ {w p}, z.earliest? w = some p ↔ IsLeast {t | z.reading t = w} p

section
variable {z : ZoneClock}

/-- two instants with different offsets have a change between them -/
theorem exists_change {a b : Int} (hab : a ≤ b) (hne : z.offset a ≠ z.offset b) :
    ∃ t, a ≤ t ∧ t < b ∧ z.offset t ≠ z.offset (t + 1) := by
  obtain ⟨k, rfl⟩ : ∃ k : Nat, b = a + k := ⟨(b - a).toNat, by omega⟩
  induction k with
  | zero =>
    rw [Int.natCast_zero, Int.add_zero] at hne
    exact absurd rfl hne
  | succ k ih =>
    rw [Int.natCast_add_one, ← Int.add_assoc] at hne
    by_cases h : z.offset a = z.offset (a + k)
    · exact ⟨a + k, by omega, by omega, by rwa [← h]⟩
    · obtain ⟨t, h0, h1, ht⟩ := ih (by omega) h
      exact ⟨t, h0, by omega, ht⟩

/-! ## the order of readings -/

section
variable (hz : z.Daylight)
include hz

theorem Daylight.sparse {a b c : Int} (hab : a ≤ b) (hbc : b ≤ c) (hc : c ≤ a + spacing) :
    z.offset a = z.offset b ∨ z.offset b = z.offset c := by
  by_contra h
  obtain ⟨h0, h1⟩ := not_or.1 h
  obtain ⟨s, hs0, hs1, hs⟩ := exists_change hab h0
  obtain ⟨t, ht0, ht1, ht⟩ := exists_change hbc h1
  have hst := hz.change_apart (show s < t by omega) hs ht
  omega

theorem Daylight.found (t : Int) : ∃ p, z.earliest? (z.reading t) = some p ∧ p ≤ t := by
  -- instants that show a reading are no more than a day before it
  have hbound : ∃ b, ∀ u, z.reading u = z.reading t → b ≤ u := by
    refine ⟨z.reading t - 86400, fun u hu => ?_⟩
    have ho : z.offset u < 86400 := hz.offset_lt u
    have hr : z.reading u = u + z.offset u := rfl
    omega
  obtain ⟨p, hp, hleast⟩ := Int.exists_least_of_bdd hbound ⟨t, rfl⟩
  exact ⟨p, hz.earliest_iff.2 ⟨hp, hleast⟩, hleast t rfl⟩

theorem Daylight.orderly : z.Orderly where
  offset_gt := hz.offset_gt
  offset_lt := hz.offset_lt
  shows hp := (hz.earliest_iff.1 hp).1
  found := hz.found
  sparse := hz.sparse

end

/-! ## regular zones -/

theorem Orderly.earliest_iff (hz : z.Orderly) {w p : Int} :
    z.earliest? w = some p ↔ IsLeast {t | z.reading t = w} p := by
  constructor
  · exact fun hp => ⟨hz.shows hp, fun t ht => hz.earliest_le_of_reading hp ht⟩
  · rintro ⟨hp, hleast⟩
    obtain ⟨q, hq, hle⟩ := hz.found p
    rw [show z.reading p = w from hp] at hq
    rw [hq, Option.some.injEq]
    exact Int.le_antisymm hle (hleast (hz.shows hq))

theorem Regular.daylight (hz : z.Regular)
    (h : ∀ t, z.offset (t + 1) ≤ z.offset t + 10800 ∧ z.offset t ≤ z.offset (t + 1) + 10800) :
    z.Daylight where
  offset_gt := hz.offset_gt
  offset_lt := hz.offset_lt
  change_le := h
  change_apart {s t} hst hs ht := by
    by_contra hnear
    -- of `s`, `s + 1`, `t` and `t + 1` three neighbours would have one offset
    have h0 := hz.sparse (a := s) (b := s + 1) (c := t) (by omega) (by omega) (by omega)
    have h1 := hz.sparse (a := s) (b := t) (c := t + 1) (by omega) (by omega) (by omega)
    omega
  earliest_iff := hz.orderly.earliest_iff

def Gentle (o o' : Int) : Prop := o' ≤ o + 10800 ∧ o ≤ o' + 10800

instance : DecidableRel Gentle := fun _ _ => inferInstanceAs (Decidable (_ ∧ _))

theorem ofChanges_daylight {offset : Int} {cs : List OffsetChange} (h0 : -secondsPerDay < offset)
    (h1 : offset < secondsPerDay) (h : Spaced Calendar.firstSecond offset cs)
    (hg : Changes Gentle offset cs) : (ofChanges offset cs).Daylight :=
  (ofChanges_regular h0 h1 h).daylight
    (h.offsetAfter_succ (fun o => ⟨by omega, by omega⟩) hg)

end

end ZoneClock

theorem NamedZone.europeBerlin_daylight : NamedZone.europeBerlin.clock.Daylight :=
  ZoneClock.ofChanges_daylight (by decide) (by decide) (by decide +kernel) (by decide +kernel)

end Rota
