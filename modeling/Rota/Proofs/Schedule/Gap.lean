import Mathlib.Order.Bounds.Basic
import Rota.Proofs.Schedule.Order
import Rota.Proofs.Zone.Changes

/-!
# Readings in a gap

A reading that the wall clock shows is resolved to the earliest instant that shows it.  A reading in a
gap is moved on by whole quarters of an hour, so it can be carried past the end of the gap, where the
rule has it go to that end.

* `Orderly.isLeast_iff`          the earliest instant that shows a reading is the one that is found;
* `Skips.reading_ne`             a reading in a gap is shown by no instant at all;
* `Skips.answer_eq`              where the search ends for a reading in a gap;
* `ZoneClock.ResolvesFirst`      the rule: the earliest instant, or the end of the gap;
* `resolvesFirst_iff`            it holds exactly when the gap ends whole quarters of an hour later.
-/

namespace Rota

open Calendar

namespace ZoneClock

section
variable {z : ZoneClock} {w t : Int} (hz : z.Orderly)
include hz

/-! ## readings that are shown -/

theorem Orderly.isLeast_iff {p : Int} :
    IsLeast {t | z.reading t = w} p ↔ z.earliest? w = some p := by
  constructor
  · rintro ⟨hp, hle⟩
    obtain ⟨q, hq, hqp⟩ := hz.found p
    rw [show z.reading p = w from hp] at hq
    rw [hq, le_antisymm hqp (hle (hz.shows hq))]
  · intro hp
    exact ⟨hz.shows hp, fun t ht => hz.earliest_le_of_reading hp ht⟩

theorem Orderly.shown_of_isLeast {p : Int} (hp : IsLeast {t | z.reading t = w} p)
    (h0 : firstSecond + 86400 ≤ w) (h1 : w + 86400 ≤ lastSecond) : z.Shown w p := by
  have ho := hz.offset_bounds p
  have hr : p + z.offset p = w := hp.1
  exact ⟨hz.isLeast_iff.1 hp, by omega, by omega⟩

/-! ## readings that are skipped -/

variable (hs : z.Skips w t)
include hs

theorem Skips.reading_cases {u : Int} (h0 : t < u + spacing) (h1 : u ≤ t + spacing) :
    (u ≤ t ∧ z.reading u = u + z.offset t) ∨ (t < u ∧ z.reading u = u + z.offset (t + 1)) := by
  rcases Int.lt_or_le t u with hlt | hle
  · exact .inr ⟨hlt, by rw [reading, hs.offset_after hz hlt h1]⟩
  · exact .inl ⟨hle, by rw [reading, hs.offset_before hz h0 hle]⟩

theorem Skips.near {u v : Int} (hu : z.reading u = v) (h0 : w ≤ v) (h1 : v < w + 86400) :
    t < u + spacing ∧ u ≤ t + spacing := by
  have hb := hs.before
  have ha := hs.after
  have ho := hz.offset_bounds u
  have ho' := hz.offset_bounds t
  have ho'' := hz.offset_bounds (t + 1)
  unfold reading at *
  unfold spacing
  omega

theorem Skips.reading_ne (u : Int) : z.reading u ≠ w := by
  intro hu
  obtain ⟨h0, h1⟩ := hs.near hz hu le_rfl (by omega)
  have hb := hs.before
  have ha := hs.after
  rcases hs.reading_cases hz h0 h1 with ⟨hut, e⟩ | ⟨htu, e⟩
  · have hr : z.reading t = t + z.offset t := rfl
    omega
  · have hr : z.reading (t + 1) = t + 1 + z.offset (t + 1) := rfl
    omega

theorem Skips.eq {u : Int} (hs' : z.Skips w u) : u = t := by
  have hb := hs.before
  have ha := hs.after
  have hb' := hs'.before
  have ha' := hs'.after
  have ho := hz.offset_bounds t
  have ho' := hz.offset_bounds u
  have ho'' := hz.offset_bounds (t + 1)
  have ho''' := hz.offset_bounds (u + 1)
  have hnear : t < u + spacing ∧ u + 1 ≤ t + spacing := by
    unfold reading at *
    unfold spacing
    omega
  have hu := hs.reading_cases hz (u := u) hnear.1 (by omega)
  have hu' := hs.reading_cases hz (u := u + 1) (by omega) hnear.2
  unfold reading at *
  omega

/-- the first reading after a gap that is shown is shown as long after the end of the gap as it lies
behind the reading there -/
theorem Skips.isLeast_after {v : Int} (h0 : z.reading (t + 1) ≤ v) (h1 : v < w + 86400) :
    IsLeast {u | z.reading u = v} (t + 1 + (v - z.reading (t + 1))) := by
  have ha := hs.after
  have hb := hs.before
  have hr : z.reading (t + 1) = t + 1 + z.offset (t + 1) := rfl
  constructor
  · have hread := hs.reading_after hz h0 (by unfold spacing; omega)
    rwa [show v - z.offset (t + 1) = t + 1 + (v - z.reading (t + 1)) by omega] at hread
  · intro u hu
    have hu' : z.reading u = v := hu
    obtain ⟨hn0, hn1⟩ := hs.near hz hu' (by omega) h1
    rcases hs.reading_cases hz hn0 hn1 with ⟨hut, e⟩ | ⟨htu, e⟩
    · have hr' : z.reading t = t + z.offset t := rfl
      omega
    · omega

end

/-! ## where the search ends -/

/-- the rest of a gap from the reading `w` on, when it ends with the instant `t + 1` -/
def rest (z : ZoneClock) (w t : Int) : Int := z.reading (t + 1) - w

/-- the quarters of an hour after which the search is over a rest of a gap -/
def quarters (rest : Int) : Int := (rest + 899) / 900

section
variable {z : ZoneClock} {w t s : Int} (hz : z.Regular) (hs : z.Skips w t)
include hz hs

theorem Skips.rest_bounds : 0 < z.rest w t ∧ z.rest w t ≤ 86400 := by
  have ha := hs.after
  have hle := hs.reading_le hz
  unfold rest
  omega

/-- a reading in a gap is moved on to the first quarter of an hour, counted from it, that is not in the
gap any more; a gap that takes up the whole day is not left, and the reading a day later is taken as
UTC -/
theorem Skips.answer_eq (h : z.Answer w s) :
    s = if z.rest w t ≤ 85500 then t + 1 + (900 * quarters (z.rest w t) - z.rest w t)
      else w + 86400 := by
  have hrest := hs.rest_bounds hz
  have hin : ∀ j : Int, 0 ≤ j → 900 * j < z.rest w t → z.Skips (w + 900 * j) t := by
    intro j hj hlt
    have hb := hs.before
    unfold rest at hlt
    exact ⟨by omega, by omega⟩
  cases h with
  | found k hk hle before shown =>
    have hshown := hz.orderly.isLeast_iff.2 shown.earliest
    -- the search does not end in the gap
    have hout : z.rest w t ≤ 900 * k := by
      by_contra hlt
      exact (hin k (by omega) (by omega)).reading_ne hz.orderly s hshown.1
    -- and it ends as soon as it is over it
    have hfirst : (k : Int) = quarters (z.rest w t) := by
      unfold quarters
      by_contra hne
      obtain ⟨j, hj⟩ : ∃ j : Nat, (j : Int) = (z.rest w t + 899) / 900 :=
        ⟨((z.rest w t + 899) / 900).toNat, by omega⟩
      obtain ⟨p, hp⟩ := hs.shown_after hz (v := w + 900 * j)
        (by unfold rest at hj; omega) (by unfold spacing rest at *; omega)
      exact before j (by omega) p hp
    have hafter := hs.isLeast_after hz.orderly (v := w + 900 * k) (by unfold rest at hout; omega)
      (by omega)
    rw [if_pos (by omega), hshown.unique hafter, ← hfirst]
    unfold rest
    omega
  | gaveUp gives hle =>
    have hlong := hs.lt_reading_of_givesUp hz gives
    rw [if_neg (by unfold rest; omega)]

end

/-! ## the rule and its exception -/

/-- a local day and time is resolved to the earliest instant that shows it; if it falls into a gap it is
resolved to the first instant after the gap -/
structure ResolvesFirst (z : ZoneClock) (day : Int) (time : TimeOfDay) : Prop where
  shown : ∀ p, IsLeast {t | z.reading t = day * 86400 + time.seconds} p →
    ∃ m, z.resolve day time = .ok m ∧ m.AtSecond p
  skipped : ∀ t, z.Skips (day * 86400 + time.seconds) t →
    ∃ m, z.resolve day time = .ok m ∧ m.AtSecond (t + 1)

end ZoneClock

/-- In a regular zone every local day and time, away from the ends of the calendar, is shown by some
instant or falls into a gap, and never both.  It is resolved to the earliest instant that shows it.  In
a gap it is moved on by the least number of whole quarters of an hour that leads out of the gap, or by a
day, and then taken as UTC, when 95 of them do not.  So it is resolved to the end of the gap exactly
when the gap ends a whole number of quarters of an hour, 95 at the most, after it. -/
theorem resolvesFirst_iff {z : ZoneClock} (hz : z.Regular) {day : Int} (time : TimeOfDay)
    (h0 : firstDay < day) (h1 : day + 1 < lastDay) :
    ((∃ p, IsLeast {t | z.reading t = day * 86400 + time.seconds} p) ↔
      ¬∃ t, z.Skips (day * 86400 + time.seconds) t) ∧
    (∀ p, IsLeast {t | z.reading t = day * 86400 + time.seconds} p →
      ∃ m, z.resolve day time = .ok m ∧ m.AtSecond p) ∧
    (∀ t, z.Skips (day * 86400 + time.seconds) t →
      ∃ m, z.resolve day time = .ok m ∧
        m.AtSecond (
          if z.rest (day * 86400 + time.seconds) t ≤ 85500 then
            t + 1 + (900 * ZoneClock.quarters (z.rest (day * 86400 + time.seconds) t)
              - z.rest (day * 86400 + time.seconds) t)
          else day * 86400 + time.seconds + 86400)) ∧
    (z.ResolvesFirst day time ↔
      ∀ t, z.Skips (day * 86400 + time.seconds) t →
        ∃ k : Nat, k ≤ 95 ∧ z.reading (t + 1) = day * 86400 + time.seconds + 900 * k) := by
  have ht := time.seconds_bounds
  have hf := firstSecond_eq_firstDay
  have hl := lastSecond_eq_lastDay
  obtain ⟨m, hm⟩ := ZoneClock.resolve_isOk (z := z) time h0.le (by omega)
  obtain ⟨s, hs, hms⟩ := ZoneClock.answer_of_resolve (by omega) hm
  have hshown : ∀ p, IsLeast {t | z.reading t = day * 86400 + time.seconds} p →
      ∃ m, z.resolve day time = .ok m ∧ m.AtSecond p := by
    intro p hp
    refine ⟨m, hm, ?_⟩
    rwa [← hs.eq_of_shown (hz.orderly.shown_of_isLeast hp (by omega) (by omega))]
  have hskipped := fun t (hskips : z.Skips (day * 86400 + time.seconds) t) => hskips.answer_eq hz hs
  refine ⟨⟨?_, fun hno => ?_⟩, hshown, fun t hskips => ⟨m, hm, hskipped t hskips ▸ hms⟩,
    ⟨fun hfirst t hskips => ?_, fun hquarters => ⟨hshown, fun t hskips => ⟨m, hm, ?_⟩⟩⟩⟩
  · rintro ⟨p, hp⟩ ⟨t, hskips⟩
    exact hskips.reading_ne hz.orderly p hp.1
  · cases he : z.earliest? (day * 86400 + time.seconds) with
    | some p => exact ⟨p, hz.orderly.isLeast_iff.2 he⟩
    | none =>
      obtain ⟨t, -, -, hskips⟩ := hz.orderly.exists_skips he
      exact absurd ⟨t, hskips⟩ hno
  · have hrest := hskips.rest_bounds hz
    obtain ⟨m', hm', hend⟩ := hfirst.skipped t hskips
    rw [hm, Except.ok.injEq] at hm'
    have e : s = t + 1 := by rw [← hms.seconds_eq, hm', hend.seconds_eq]
    have hanswer := hskipped t hskips
    -- a search that gives up does not end there: the clock would have been a day behind
    have hleft : z.rest (day * 86400 + time.seconds) t ≤ 85500 := by
      by_contra hlong
      rw [if_neg hlong] at hanswer
      have hb := hskips.before
      have ho := hz.offset_bounds t
      unfold ZoneClock.reading at hb
      omega
    rw [if_pos hleft] at hanswer
    unfold ZoneClock.quarters at hanswer
    unfold ZoneClock.rest at *
    exact ⟨((z.reading (t + 1) - (day * 86400 + time.seconds)) / 900).toNat, by omega, by omega⟩
  · obtain ⟨k, hk, hread⟩ := hquarters t hskips
    have hanswer := hskipped t hskips
    have hrest : z.rest (day * 86400 + time.seconds) t = 900 * k := by
      unfold ZoneClock.rest
      omega
    rw [hrest, if_pos (by omega)] at hanswer
    unfold ZoneClock.quarters at hanswer
    rwa [show t + 1 = s by omega]

/-- on 2024-03-31 the clock in Berlin was set forward from 02:00 to 03:00: 02:30 of that day lies two
quarters of an hour before the end of the gap, and is resolved to it -/
theorem resolvesFirst_iff_berlin :
    NamedZone.europeBerlin.clock.Regular ∧ firstDay < 19813 ∧ 19813 + 1 < lastDay ∧
      NamedZone.europeBerlin.clock.Skips (19813 * 86400 + TimeOfDay.seconds ⟨2, 30⟩) 1711846799 ∧
      NamedZone.europeBerlin.clock.ResolvesFirst 19813 ⟨2, 30⟩ := by
  have hz := NamedZone.europeBerlin_regular
  have hskips : NamedZone.europeBerlin.clock.Skips
      (19813 * 86400 + TimeOfDay.seconds ⟨2, 30⟩) 1711846799 :=
    ⟨by decide +kernel, by decide +kernel⟩
  have hend : NamedZone.europeBerlin.clock.reading (1711846799 + 1)
      = 19813 * 86400 + TimeOfDay.seconds ⟨2, 30⟩ + 900 * (2 : Nat) := by decide +kernel
  refine ⟨hz, by decide, by decide, hskips,
    (resolvesFirst_iff hz ⟨2, 30⟩ (by decide) (by decide)).2.2.2.2 fun t ht => ⟨2, by decide, ?_⟩⟩
  rw [hskips.eq hz.orderly ht]
  exact hend

/-- 02:10 of that day lies fifty minutes before the end of the gap, and is carried on to 03:10 -/
theorem not_resolvesFirst : ¬NamedZone.europeBerlin.clock.ResolvesFirst 19813 ⟨2, 10⟩ := by
  intro h
  have hskips : NamedZone.europeBerlin.clock.Skips
      (19813 * 86400 + TimeOfDay.seconds ⟨2, 10⟩) 1711846799 :=
    ⟨by decide +kernel, by decide +kernel⟩
  obtain ⟨m, hm, hend⟩ := h.skipped _ hskips
  have hresolve : NamedZone.europeBerlin.clock.resolve 19813 ⟨2, 10⟩
      = .ok ⟨1711847400000000000, by decide, by decide⟩ := by decide +kernel
  rw [hresolve, Except.ok.injEq] at hm
  subst hm
  exact absurd hend.seconds_eq (by decide)

end Rota
