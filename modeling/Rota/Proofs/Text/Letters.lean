import Mathlib
import Rota.Proofs.Text.Numeral

/-!
# Capital and small letters

What making the letters of ASCII small does to a text.

* `map_toLower_eq_iff`   a text without letters comes from itself alone;
* `Numeral.unsigned?_map_toLower`   so making letters small does not turn a text into a number.
-/

namespace Rota.Text

variable {c : Char}

theorem toLower_of_not_isAlpha (h : c.isAlpha = false) : c.toLower = c :=
  Char.toLower_eq_of_not_isUpper fun hupper => by
    rw [Char.isAlpha, hupper, Bool.true_or] at h
    exact nomatch h

theorem not_isAlpha_of_isDigit (h : c.isDigit = true) : c.isAlpha = false := by
  have hdigit := toNat_of_isDigit h
  simp only [Char.isAlpha, Char.isUpper, Char.isLower, UInt32.le_iff_toNat_le]
  simp
  omega

/-- a text without letters comes from no other text when letters are made small -/
theorem map_toLower_eq_iff {cs ds : List Char} (h : ∀ c ∈ ds, c.isAlpha = false) :
    cs.map Char.toLower = ds ↔ cs = ds := by
  constructor
  · rintro rfl
    refine ((List.map_congr_left fun c hc => toLower_of_not_isAlpha ?_).trans (List.map_id cs)).symm
    rw [← Char.isAlpha_toLower_eq_isAlpha]
    exact h _ (List.mem_map_of_mem hc)
  · rintro rfl
    exact (List.map_congr_left fun c hc => toLower_of_not_isAlpha (h c hc)).trans (List.map_id cs)

theorem Numeral.unsigned?_map_toLower (bound : Nat) (cs : List Char) :
    unsigned? bound (cs.map Char.toLower) = unsigned? bound cs := by
  refine Option.ext fun n => ?_
  rw [unsigned?_eq_some_iff, unsigned?_eq_some_iff]
  refine exists_congr fun ds => and_congr_left fun h => ?_
  have hds : ∀ c ∈ ds, c.isAlpha = false := fun c hc =>
    not_isAlpha_of_isDigit ((isNumeral_iff.1 h.1).2 c hc)
  have hsign : ∀ c ∈ '+' :: ds, c.isAlpha = false := List.forall_mem_cons.2 ⟨rfl, hds⟩
  rw [map_toLower_eq_iff hds, map_toLower_eq_iff hsign]

end Rota.Text
