/-!
# Computations that may fail

A computation of several steps gives a result if every step does, and the first error otherwise.

* `bind_eq_ok`, `bind_eq_error`   two steps, one after the other;
* `bind_isOk_iff`, `bind_eq_error_of_isOk`   two steps of which the second one does not fail;
* `map_eq_ok`                     a step, and what is made of its result.
-/

namespace Rota

variable {ε α β : Type} {x : Except ε α}

theorem bind_eq_ok {f : α → Except ε β} {b : β} :
    (x >>= f) = .ok b ↔ ∃ a, x = .ok a ∧ f a = .ok b := by
  cases x with
  | error e => exact ⟨nofun, nofun⟩
  | ok a => exact ⟨fun h => ⟨a, rfl, h⟩, fun ⟨a', e, h⟩ => by rwa [Except.ok.inj e]⟩

theorem bind_eq_error {f : α → Except ε β} {e : ε} :
    (x >>= f) = .error e ↔ x = .error e ∨ ∃ a, x = .ok a ∧ f a = .error e := by
  cases x with
  | error e' =>
    refine ⟨fun h => .inl (congrArg _ (Except.error.inj h)), ?_⟩
    rintro (h | ⟨a, ha, -⟩)
    · exact congrArg _ (Except.error.inj h)
    · exact nomatch ha
  | ok a =>
    refine ⟨fun h => .inr ⟨a, rfl, h⟩, ?_⟩
    rintro (h | ⟨a', ha, h⟩)
    · exact nomatch h
    · rwa [Except.ok.inj ha]

theorem bind_isOk_iff {f : α → Except ε β}
    (hf : ∀ a, x = .ok a → ∃ b, f a = .ok b) : (∃ b, (x >>= f) = .ok b) ↔ ∃ a, x = .ok a := by
  constructor
  · rintro ⟨b, h⟩
    obtain ⟨a, ha, -⟩ := bind_eq_ok.1 h
    exact ⟨a, ha⟩
  · rintro ⟨a, ha⟩
    obtain ⟨b, hb⟩ := hf a ha
    exact ⟨b, bind_eq_ok.2 ⟨a, ha, hb⟩⟩

theorem bind_eq_error_of_isOk {f : α → Except ε β}
    (hf : ∀ a, x = .ok a → ∃ b, f a = .ok b) {e : ε} : (x >>= f) = .error e ↔ x = .error e := by
  refine bind_eq_error.trans ⟨?_, .inl⟩
  rintro (h | ⟨a, ha, h⟩)
  · exact h
  · obtain ⟨b, hb⟩ := hf a ha
    exact nomatch hb.symm.trans h

theorem map_eq_ok {f : α → β} {b : β} :
    x.map f = .ok b ↔ ∃ a, x = .ok a ∧ f a = b := by
  cases x with
  | error e => exact ⟨nofun, nofun⟩
  | ok a =>
    constructor
    · intro h
      exact ⟨a, rfl, Except.ok.inj h⟩
    · rintro ⟨_, ha, rfl⟩
      rw [Except.ok.inj ha]
      rfl

end Rota
