import Rota.Calendar.Moment
import Mathlib.Order.Defs.LinearOrder

/-!
# The order of moments

Moments are in the order of their nanoseconds.  Many of them lie at whole seconds, and these are
compared in seconds.

* `Moment.AtSecond`               a moment at a whole second;
* `AtSecond.lt_iff`, `AtSecond.le_iff`   how other moments lie to it.
-/

namespace Rota

namespace Moment

instance : LinearOrder Moment where
  le_refl a := Int.le_refl a.nanos
  le_trans _ _ _ h h' := Int.le_trans (le_def.1 h) (le_def.1 h')
  lt_iff_le_not_ge a b := by
    simp only [lt_def, le_def]
    omega
  le_antisymm _ _ h h' := ext_nanos (Int.le_antisymm h h')
  le_total a b := Int.le_total a.nanos b.nanos
  toDecidableLE := inferInstance

end Moment

/-! ## whole seconds -/

namespace Calendar

theorem firstSecond_eq_firstDay : firstSecond = firstDay * 86400 := rfl

theorem lastSecond_eq_lastDay : lastSecond = lastDay * 86400 + 86399 := rfl

theorem firstSecond_eq : firstSecond = -8334601228800 := by decide

theorem lastSecond_eq : lastSecond = 8210266876799 := by decide

end Calendar

namespace Moment

/-- the moment lies at a whole second, and it is this one -/
def AtSecond (m : Moment) (s : Int) : Prop := m.nanos = s * nanosPerSecond

theorem ofSeconds?_eq_some_iff {s : Int} {m : Moment} : ofSeconds? s = some m ↔ m.AtSecond s :=
  ofNanos?_eq_some_iff

theorem seconds_mem (m : Moment) :
    Calendar.firstSecond ≤ m.seconds ∧ m.seconds ≤ Calendar.lastSecond := by
  have h0 := m.first_le
  have h1 := m.le_last
  unfold Calendar.firstNano at h0
  unfold Calendar.lastNano at h1
  unfold seconds
  unfold nanosPerSecond at *
  omega

theorem seconds_mono {a b : Moment} (h : a ≤ b) : a.seconds ≤ b.seconds := by
  have h' : a.nanos ≤ b.nanos := h
  unfold seconds nanosPerSecond
  omega

theorem exists_atSecond {s : Int} (h0 : Calendar.firstSecond ≤ s) (h1 : s ≤ Calendar.lastSecond) :
    ∃ m : Moment, m.AtSecond s := by
  have h0' : Calendar.firstNano ≤ s * nanosPerSecond := by
    unfold Calendar.firstNano nanosPerSecond
    omega
  have h1' : s * nanosPerSecond ≤ Calendar.lastNano := by
    unfold Calendar.lastNano nanosPerSecond
    omega
  exact ⟨⟨_, h0', h1'⟩, rfl⟩

section
variable {m : Moment} {s : Int} (hm : m.AtSecond s)
include hm

theorem AtSecond.seconds_eq : m.seconds = s := by
  unfold AtSecond at hm
  unfold seconds
  rw [hm]
  exact Int.mul_ediv_cancel s (by decide)

theorem AtSecond.mem : Calendar.firstSecond ≤ s ∧ s ≤ Calendar.lastSecond := by
  have h := m.seconds_mem
  rwa [hm.seconds_eq] at h

theorem AtSecond.lt_iff {a : Moment} : a < m ↔ a.seconds < s := by
  unfold AtSecond at hm
  rw [lt_def, hm]
  unfold seconds nanosPerSecond
  omega

theorem AtSecond.le_iff {a : Moment} : m ≤ a ↔ s ≤ a.seconds := by
  unfold AtSecond at hm
  rw [le_def, hm]
  unfold seconds nanosPerSecond
  omega

end

end Moment

end Rota
