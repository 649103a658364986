import Rota.Proofs.Schedule.Resolve

/-!
# The order of answers

The moments that `ZoneClock.resolve` finds for two readings come in the order of the readings, in a
regular zone and with one exception: a search that gave up can end after the slot of the next day.

* `Answer.exists_localDay`     the day that the wall clock shows at an answer;
* `Answer.lt`                  the order, and the exception;
* `Answer.le_of_setBack`       a slot of an earlier day is over when the clock is set back;
* `Regular.shown_next_day`     a reading is shown on one of two days that follow each other;
* `Answer.reading_le`           the wall clock at a slot stays in the calendar;
* `Answer.lt_of_reading_lt`    a slot comes before the slots of the days after the one it lies on.
-/

namespace Rota

namespace ZoneClock

open Calendar

section
variable {z : ZoneClock} {w s : Int}

theorem GivesUp.unshown (h : z.GivesUp w) : z.Unshown w := by
  simpa using h 0 (by omega)

theorem Answer.eq_of_shown {p : Int} (h : z.Answer w s) (hp : z.Shown w p) : s = p := by
  cases h with
  | found k hk hle before shown =>
    cases k with
    | zero =>
      have hs : z.earliest? w = some s := by simpa using shown.earliest
      rw [hp.earliest, Option.some.injEq] at hs
      exact hs.symm
    | succ k =>
      have h0 : z.Unshown w := by simpa using before 0 (by omega)
      exact absurd hp (h0 p)
  | gaveUp gives => exact absurd hp (gives.unshown p)

theorem Answer.eq_of_givesUp (h : z.Answer w s) (hgives : z.GivesUp w) :
    s = w + 86400 ∧ s ≤ lastSecond := by
  cases h with
  | found k hk hle before shown => exact absurd shown (hgives k hk s)
  | gaveUp gives hle => exact ⟨rfl, hle⟩

/-- the reading at a slot: the first one tried that is shown, or a day later in UTC -/
theorem Answer.reading_cases (hz : z.Faithful) (h : z.Answer w s) :
    (w ≤ z.reading s ∧ z.reading s ≤ w + 85500 ∧ z.reading s ≤ lastSecond) ∨
      (z.GivesUp w ∧ s = w + 86400 ∧ s ≤ lastSecond) := by
  cases h with
  | found k hk hle before shown =>
    have hs := hz.shows shown.earliest
    exact .inl (by omega)
  | gaveUp gives hle => exact .inr ⟨gives, rfl, hle⟩

theorem Answer.bounds (hz : z.Faithful) (h : z.Answer w s) :
    w - 86400 < s ∧ s < w + 171900 ∧ w ≤ z.reading s ∧ z.reading s < w + 172800 := by
  have ho := hz.offset_bounds s
  have hr : z.reading s = s + z.offset s := rfl
  rcases h.reading_cases hz with h | ⟨-, e, -⟩ <;> omega

/-- the wall clock shows a day at an answer: the reading's own one, or one of the two after it -/
theorem Answer.exists_localDay (hz : z.Faithful) {day : Int} {time : TimeOfDay} {m : Moment}
    (h : z.Answer (day * 86400 + time.seconds) s) (hm : m.AtSecond s) (h0 : firstDay ≤ day)
    (hlast : z.reading s ≤ lastSecond) : ∃ d, z.localDay m = .ok d ∧ day ≤ d ∧ d ≤ day + 2 := by
  have ht := time.seconds_bounds
  have hf := firstSecond_eq_firstDay
  have hb := h.bounds hz
  refine ⟨z.reading s / 86400, ?_, by omega, by omega⟩
  rw [localDay_eq_ok_iff, hm.seconds_eq]
  exact ⟨by omega, hlast, rfl⟩

/-- answers come in the order of their readings, a day after a search that did not give up and two
days after any search -/
theorem Answer.lt (hz : z.Orderly) {v p : Int} (hv : z.Answer v p) (hw : z.Answer w s)
    (hvw : v + 86400 ≤ w) (hgives : z.GivesUp v → v + 172800 ≤ w) : p < s := by
  have hp := hv.bounds hz.toFaithful
  have hs := hw.bounds hz.toFaithful
  cases hv with
  | found k hk hle before shown =>
    cases hw with
    | found k' hk' hle' before' shown' =>
      exact hz.earliest_lt (by omega) shown.earliest shown'.earliest
    | gaveUp gives' => omega
  | gaveUp gives =>
    have hgap := hgives gives
    omega

/-- a reading that is shown by an instant which is not too late is shown in the calendar -/
theorem Orderly.shown_of_reading (hz : z.Orderly) {t : Int} (ht : z.reading t = w)
    (hw : firstSecond + 86400 ≤ w) (hl : t ≤ lastSecond) : ∃ p, z.Shown w p ∧ p ≤ t := by
  obtain ⟨p, hp, hle⟩ := hz.found t
  rw [ht] at hp
  have hpr := hz.shows hp
  have hp0 := hz.offset_bounds p
  unfold reading at hpr
  exact ⟨p, ⟨hp, by omega, by omega⟩, hle⟩

theorem Skips.exists_shown (hz : z.Orderly) {t : Int} (hs : z.Skips w t)
    (hw : firstSecond + 86400 ≤ w) (ht : t + 900 ≤ lastSecond)
    (hgap : z.reading (t + 1) ≤ w + 172800) :
    ∃ j : Nat, 900 * (j : Int) < z.reading (t + 1) - w + 900 ∧ ∃ p, z.Shown (w + 900 * j) p := by
  have hlt := hs.after
  obtain ⟨j, hj⟩ : ∃ j : Nat, (j : Int) = (z.reading (t + 1) - w + 899) / 900 :=
    ⟨((z.reading (t + 1) - w + 899) / 900).toNat, by omega⟩
  have hread := hs.reading_after hz (v := w + 900 * j) (by omega) (by unfold spacing; omega)
  obtain ⟨p, hp, -⟩ := hz.shown_of_reading hread (by omega) (by unfold reading at hj; omega)
  exact ⟨j, by omega, p, hp⟩

variable (hz : z.Regular)
include hz

/-! ## clocks that are set back -/

theorem Regular.shown_of_setBack {a b : Int} (hab : a ≤ b) (hb : b ≤ lastSecond)
    (hback : z.reading b < z.reading a) (hw : w ≤ z.reading a) (hfirst : firstSecond ≤ w)
    (hnear : b ≤ w - z.offset a + spacing) : ∃ p, z.Shown w p ∧ p ≤ a := by
  have hx := hz.orderly.reading_of_setBack hab hback hw hnear
  obtain ⟨p, hp, hle⟩ := hz.found (w - z.offset a)
  rw [hx] at hp
  have hpr := hz.shows hp
  have hp0 := hz.offset_bounds p
  have ha0 := hz.offset_bounds a
  have hpa : p ≤ a := hz.orderly.earliest_le hp hw
  have hfirst' : firstSecond ≤ p := by
    -- before the calendar begins there is one offset, and it holds for three days more
    by_contra hlt
    have hs := hz.settled_first (t := p) (by unfold spacing; omega)
    have hsb : ¬b ≤ firstSecond + spacing := by
      intro hle
      have e := hz.settled_first (t := a) (by omega)
      have e' := hz.settled_first hle
      unfold reading at hback
      omega
    have hsx := hz.settled_first (t := w - z.offset a)
    unfold reading at hx hpr
    unfold spacing at *
    omega
  exact ⟨p, ⟨hp, hfirst', by omega⟩, hpa⟩

/-- when the clock is set back, the slots of the readings before are over -/
theorem Answer.le_of_setBack (h : z.Answer w s) {a b : Int} (hab : a ≤ b) (hb : b ≤ lastSecond)
    (hback : z.reading b < z.reading a) (hw : w ≤ z.reading a) (hfirst : firstSecond ≤ w) :
    s ≤ b := by
  by_contra hlt
  have hs := h.bounds hz.faithful
  have ha0 := hz.offset_bounds a
  have hb0 := hz.offset_bounds b
  have hs0 := hz.offset_bounds s
  have hne : z.offset a ≠ z.offset b := by
    intro e
    unfold reading at hback
    omega
  -- the offset after the change still holds at the slot
  have hbs : z.offset b = z.offset s := by
    have hw' := hw
    unfold reading at hw'
    rcases hz.sparse hab (c := s) (by omega) (by unfold spacing; omega) with e | e
    · exact absurd e hne
    · exact e
  have hnear : b ≤ w - z.offset a + spacing := by
    unfold spacing
    rcases h.reading_cases hz.faithful with ⟨-, h1, -⟩ | ⟨-, e, -⟩
    · unfold reading at h1
      omega
    · omega
  obtain ⟨p, hp, hpa⟩ := hz.shown_of_setBack hab hb hback hw hfirst hnear
  have e := h.eq_of_shown hp
  omega

/-! ## clocks that are set forward -/

theorem Regular.skips_or_outside (hw : z.Unshown w) :
    (∃ t, z.Skips w t) ∨
      ∃ p, z.reading p = w ∧ (p < firstSecond ∨ lastSecond < p) := by
  cases he : z.earliest? w with
  | none =>
    obtain ⟨t, -, -, ht⟩ := hz.orderly.exists_skips he
    exact .inl ⟨t, ht⟩
  | some p =>
    refine .inr ⟨p, hz.shows he, ?_⟩
    by_contra h
    exact hw p ⟨he, by omega, by omega⟩

theorem Skips.shown_after {t v : Int} (hs : z.Skips w t) (h0 : z.reading (t + 1) ≤ v)
    (h1 : v < z.reading (t + 1) + spacing) : ∃ p, z.Shown v p := by
  have hi := hs.interior hz
  have ho := hz.offset_bounds (t + 1)
  have he := hs.reading_after hz.orderly h0 h1
  unfold reading at h0 h1
  unfold spacing at *
  obtain ⟨p, hp, -⟩ := hz.orderly.shown_of_reading he (by omega) (by omega)
  exact ⟨p, hp⟩

theorem Skips.shown_before {t v : Int} (hs : z.Skips w t) (h0 : z.reading t ≤ v + 86400)
    (h1 : v ≤ z.reading t) : ∃ p, z.Shown v p ∧ p ≤ t := by
  have hi := hs.interior hz
  have ho := hz.offset_bounds t
  have he := hs.reading_before hz.orderly (by unfold spacing; omega) h1
  unfold reading at h0 h1
  unfold spacing at *
  obtain ⟨p, hp, hle⟩ := hz.orderly.shown_of_reading he (by omega) (by omega)
  exact ⟨p, hp, by omega⟩

/-- a gap that the search does not get over is a whole day long, less a quarter of an hour -/
theorem Skips.lt_reading_of_givesUp {t : Int} (hs : z.Skips w t) (hgives : z.GivesUp w) :
    w + 85500 < z.reading (t + 1) := by
  by_contra hle
  have hi := hs.interior hz
  have hlt := hs.before
  have ho := hz.offset_bounds t
  unfold reading at hlt
  unfold spacing at hi
  obtain ⟨j, hj, p, hp⟩ := hs.exists_shown hz.orderly (by omega) (by omega) (by omega)
  exact hgives j (by omega) p hp

/-- a reading is shown on one of two days that follow each other -/
theorem Regular.shown_next_day (hw : z.Unshown w) (h0 : firstSecond ≤ w)
    (h1 : w + 86400 ≤ lastSecond) : ∃ p, z.Shown (w + 86400) p := by
  rcases hz.skips_or_outside hw with ⟨t, ht⟩ | ⟨p, hp, hout⟩
  · have hlt := ht.after
    exact ht.shown_after hz (ht.reading_le hz) (by unfold spacing; omega)
  · have ho := hz.offset_bounds p
    have hs := hz.settled_first (t := p)
    have hs' := hz.settled_first (t := p + 86400)
    have hn := firstSecond_eq
    have hn' := lastSecond_eq
    unfold reading at hp
    unfold spacing at *
    obtain ⟨q, hq, -⟩ := hz.orderly.shown_of_reading (w := w + 86400) (t := p + 86400)
      (by unfold reading; rw [hs' (by omega), ← hs (by omega)]; omega) (by omega) (by omega)
    exact ⟨q, hq⟩

/-! ## the day of a slot -/

theorem Answer.reading_le (h : z.Answer w s) (hw : firstSecond ≤ w) :
    z.reading s ≤ lastSecond := by
  rcases h.reading_cases hz.faithful with h | ⟨hgives, rfl, hle⟩
  · exact h.2.2
  · by_contra hlt
    have ho := hz.offset_bounds (w + 86400)
    have hn := firstSecond_eq
    have hn' := lastSecond_eq
    -- so near to the end the reading itself is shown
    have e := hz.settled_last (t := w + 86400)
    have e' := hz.settled_last (t := w - z.offset (w + 86400))
    unfold reading at hlt
    unfold spacing at *
    obtain ⟨p, hp, -⟩ := hz.orderly.shown_of_reading (w := w) (t := w - z.offset (w + 86400))
      (by unfold reading; rw [e' (by omega), ← e (by omega)]; omega) (by omega) (by omega)
    exact hgives.unshown p hp

theorem Answer.lt_of_reading_lt {v p : Int} (hv : z.Answer v p) (hw : z.Answer w s)
    (hvw : v + 86400 ≤ w) (hlt : z.reading p < w) (h0 : firstSecond ≤ v) : p < s := by
  by_cases hgives : z.GivesUp v
  · obtain ⟨e, hp⟩ := hv.eq_of_givesUp hgives
    by_contra hle
    have hs := hw.bounds hz.faithful
    have ho := hz.offset_bounds s
    -- the clock would be set back between the two, and `v` would have been shown before
    obtain ⟨q, hq, -⟩ := hz.shown_of_setBack (w := v) (a := s) (b := p) (by omega) hp (by omega)
      (by omega) h0 (by unfold spacing; omega)
    exact hgives.unshown q hq
  · exact hv.lt hz.orderly hw hvw fun h => absurd h hgives

end

end ZoneClock

end Rota
