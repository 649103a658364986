import Rota.Proofs.Zone.Regular
import Rota.Zone.Table

/-!
# Zones made of changes are regular

A zone that is given by its changes is regular if the changes are far enough apart, and that can be
checked by going through them once.

* `ZoneClock.Spaced`          the check;
* `Spaced.offsetAfter_succ`   from one second to the next the offset stays, or there is one change;
* `ZoneClock.ofChanges_regular`   what it is good for.

Some zones of the table pass the check.
-/

namespace Rota

namespace ZoneClock

/-- changes from `since` on, where `offset` comes into force: all far apart, all to offsets of less
than a day, none that sets the clock forward by more than a day, none near the end of the
calendar -/
def Spaced (since offset : Int) : List OffsetChange → Prop
  | [] => since ≤ Calendar.lastSecond - spacing
  | c :: cs => since + spacing < c.since ∧ -secondsPerDay < c.offset ∧ c.offset < secondsPerDay ∧
      c.offset ≤ offset + secondsPerDay ∧ Spaced c.since c.offset cs

instance decidableSpaced (since offset : Int) :
    (cs : List OffsetChange) → Decidable (Spaced since offset cs)
  | [] => inferInstanceAs (Decidable (since ≤ _))
  | c :: cs =>
    have := decidableSpaced c.since c.offset cs
    inferInstanceAs (Decidable (_ ∧ _ ∧ _ ∧ _ ∧ Spaced c.since c.offset cs))

def Changes (R : Int → Int → Prop) (offset : Int) : List OffsetChange → Prop
  | [] => True
  | c :: cs => R offset c.offset ∧ Changes R c.offset cs

instance decidableChanges (R : Int → Int → Prop) [DecidableRel R] (offset : Int) :
    (cs : List OffsetChange) → Decidable (Changes R offset cs)
  | [] => inferInstanceAs (Decidable True)
  | c :: cs =>
    have := decidableChanges R c.offset cs
    inferInstanceAs (Decidable (_ ∧ Changes R c.offset cs))

/-! ## the offset -/

section
variable {since offset : Int} {cs : List OffsetChange}

theorem Spaced.since_le (h : Spaced since offset cs) : since ≤ Calendar.lastSecond - spacing := by
  induction cs generalizing since offset with
  | nil => exact h
  | cons c cs ih =>
    have hc := ih h.2.2.2.2
    have hlt := h.1
    unfold spacing at *
    omega

theorem Spaced.offsetAfter_eq (h : Spaced since offset cs) {t : Int} (ht : t ≤ since + spacing) :
    offsetAfter offset cs t = offset := by
  cases cs with
  | nil => rfl
  | cons c cs =>
    have hlt := h.1
    exact if_pos (by omega)

theorem Spaced.offsetAfter_bounds (h : Spaced since offset cs) (h0 : -secondsPerDay < offset)
    (h1 : offset < secondsPerDay) (t : Int) :
    -secondsPerDay < offsetAfter offset cs t ∧ offsetAfter offset cs t < secondsPerDay := by
  induction cs generalizing since offset with
  | nil => exact ⟨h0, h1⟩
  | cons c cs ih =>
    obtain ⟨-, hc0, hc1, -, hcs⟩ := h
    unfold offsetAfter
    split
    · exact ⟨h0, h1⟩
    · exact ih hcs hc0 hc1

theorem Spaced.offsetAfter_succ {R : Int → Int → Prop} (hrefl : ∀ o, R o o)
    (h : Spaced since offset cs) (hR : Changes R offset cs) (t : Int) :
    R (offsetAfter offset cs t) (offsetAfter offset cs (t + 1)) := by
  induction cs generalizing since offset with
  | nil => exact hrefl offset
  | cons c cs ih =>
    have hcs := h.2.2.2.2
    by_cases h0 : t + 1 < c.since
    · simp only [offsetAfter, if_pos h0, if_pos (show t < c.since by omega)]
      exact hrefl offset
    · by_cases h1 : t < c.since
      · simp only [offsetAfter, if_neg h0, if_pos h1]
        rw [hcs.offsetAfter_eq (by unfold spacing; omega)]
        exact hR.1
      · simp only [offsetAfter, if_neg h0, if_neg h1]
        exact ih hcs hR.2

theorem Spaced.changes (h : Spaced since offset cs) :
    Changes (fun o o' => o' ≤ o + secondsPerDay) offset cs := by
  induction cs generalizing since offset with
  | nil => trivial
  | cons c cs ih => exact ⟨h.2.2.2.1, ih h.2.2.2.2⟩

theorem Spaced.offsetAfter_succ_le (h : Spaced since offset cs) (t : Int) :
    offsetAfter offset cs (t + 1) ≤ offsetAfter offset cs t + secondsPerDay :=
  h.offsetAfter_succ (R := fun o o' => o' ≤ o + secondsPerDay)
    (fun _ => Int.le_add_of_nonneg_right (by decide)) h.changes t

/-- of three instants close to each other, two neighbours lie between the same changes -/
theorem Spaced.offsetAfter_sparse (h : Spaced since offset cs) {t u v : Int} (htu : t ≤ u)
    (huv : u ≤ v) (hv : v ≤ t + spacing) :
    offsetAfter offset cs t = offsetAfter offset cs u ∨
      offsetAfter offset cs u = offsetAfter offset cs v := by
  induction cs generalizing since offset with
  | nil => exact .inl rfl
  | cons c cs ih =>
    have hcs := h.2.2.2.2
    by_cases ht : t < c.since
    · by_cases hu : u < c.since
      · left
        simp only [offsetAfter, if_pos ht, if_pos hu]
      · right
        simp only [offsetAfter, if_neg hu, if_neg (show ¬v < c.since by omega)]
        rw [hcs.offsetAfter_eq (by omega), hcs.offsetAfter_eq (by omega)]
    · simp only [offsetAfter, if_neg ht, if_neg (show ¬u < c.since by omega),
        if_neg (show ¬v < c.since by omega)]
      exact ih hcs

theorem Spaced.offsetAfter_last (h : Spaced since offset cs) {t : Int}
    (ht : Calendar.lastSecond - spacing ≤ t) :
    offsetAfter offset cs t = offsetAfter offset cs Calendar.lastSecond := by
  induction cs generalizing since offset with
  | nil => rfl
  | cons c cs ih =>
    have hcs := h.2.2.2.2
    have hc := hcs.since_le
    have hl : ¬Calendar.lastSecond < c.since := by
      unfold spacing at hc
      omega
    simp only [offsetAfter, if_neg (show ¬t < c.since by omega), if_neg hl]
    exact ih hcs

/-! ## the instants of readings -/

/-- the instant that is found for a reading shows it -/
theorem Spaced.earliestFrom?_sound (h : Spaced since offset cs) {start : Option Int}
    (hs : ∀ s ∈ start, s ≤ since) {w p : Int} (hp : earliestFrom? start offset cs w = some p) :
    (∀ s ∈ start, s ≤ p) ∧ p + offsetAfter offset cs p = w := by
  induction cs generalizing since offset start with
  | nil =>
    simp only [earliestFrom?, Option.all_eq_true, decide_eq_true_eq] at hp
    split at hp
    case isTrue hc =>
      rw [Option.some.injEq] at hp
      subst hp
      exact ⟨hc, by simp only [offsetAfter]; omega⟩
    case isFalse => simp at hp
  | cons c cs ih =>
    have hlt := h.1
    simp only [earliestFrom?, Option.all_eq_true, decide_eq_true_eq] at hp
    split at hp
    case isTrue hc =>
      rw [Option.some.injEq] at hp
      subst hp
      refine ⟨hc.1, ?_⟩
      simp only [offsetAfter, if_pos hc.2]
      omega
    case isFalse =>
      obtain ⟨hge, e⟩ := ih h.2.2.2.2 (by simp) hp
      have hpc : c.since ≤ p := hge c.since rfl
      refine ⟨fun s hmem => ?_, ?_⟩
      · have := hs s hmem
        unfold spacing at hlt
        omega
      · simpa only [offsetAfter, if_neg (show ¬p < c.since by omega)] using e

theorem earliestFrom?_le (offset : Int) (cs : List OffsetChange) {start : Option Int} {t : Int}
    (hs : ∀ s ∈ start, s ≤ t) :
    ∃ p, earliestFrom? start offset cs (t + offsetAfter offset cs t) = some p ∧ p ≤ t := by
  induction cs generalizing offset start with
  | nil =>
    refine ⟨t, ?_, Int.le_refl t⟩
    simp only [earliestFrom?, offsetAfter, Int.add_sub_cancel, Option.all_eq_true,
      decide_eq_true_eq]
    exact if_pos hs
  | cons c cs ih =>
    simp only [earliestFrom?, Option.all_eq_true, decide_eq_true_eq]
    split
    case isTrue hc =>
      refine ⟨_, rfl, ?_⟩
      by_cases ht : t < c.since
      · simp only [offsetAfter, if_pos ht, Int.add_sub_cancel]
        exact Int.le_refl t
      · omega
    case isFalse hc =>
      -- before the change the reading would have been found
      have ht : ¬t < c.since := by
        intro ht
        refine hc ?_
        simp only [offsetAfter, if_pos ht, Int.add_sub_cancel]
        exact ⟨hs, ht⟩
      simp only [offsetAfter, if_neg ht]
      exact ih c.offset (by simpa using ht)

end

/-! ## zones -/

theorem ofChanges_regular {offset : Int} {cs : List OffsetChange} (h0 : -secondsPerDay < offset)
    (h1 : offset < secondsPerDay) (h : Spaced Calendar.firstSecond offset cs) :
    (ofChanges offset cs).Regular where
  offset_gt t := (h.offsetAfter_bounds h0 h1 t).1
  offset_lt t := (h.offsetAfter_bounds h0 h1 t).2
  shows hp := (h.earliestFrom?_sound (by simp) hp).2
  found t := earliestFrom?_le offset cs (by simp)
  jump_le := h.offsetAfter_succ_le
  sparse := h.offsetAfter_sparse
  settled_first ht := by
    show offsetAfter offset cs _ = offsetAfter offset cs _
    rw [h.offsetAfter_eq ht, h.offsetAfter_eq (by decide)]
  settled_last := h.offsetAfter_last

theorem fixed_regular {offset : Int} (h0 : -secondsPerDay < offset) (h1 : offset < secondsPerDay) :
    (fixed offset).Regular := by
  have h : Calendar.firstSecond ≤ Calendar.lastSecond - spacing := by decide
  rw [← ofChanges_nil]
  exact ofChanges_regular h0 h1 h

end ZoneClock

namespace NamedZone

open ZoneClock

theorem utc_regular : utc.clock.Regular := fixed_regular (by decide) (by decide)

theorem europeBerlin_regular : europeBerlin.clock.Regular :=
  ofChanges_regular (by decide) (by decide) (by decide +kernel)

theorem pacificApia_regular : pacificApia.clock.Regular :=
  ofChanges_regular (by decide) (by decide) (by decide +kernel)

theorem asiaPyongyang_regular : asiaPyongyang.clock.Regular :=
  ofChanges_regular (by decide) (by decide) (by decide +kernel)

end NamedZone

end Rota
