import Rota.Text.Blank

/-!
# Texts between blanks

What `trim` leaves of a text, said without it.

* `IsCore`       a part of a text with nothing but blanks around it, and no blank at its own ends;
* `isCore_iff`   every text has one such part, and `trim` finds it.
-/

namespace Rota.Text

/-- what is left of a text without the blanks around it -/
structure IsCore (cs core : List Char) : Prop where
  around : ∃ front back, cs = front ++ (core ++ back) ∧ (∀ c ∈ front, isBlank c = true) ∧
    ∀ c ∈ back, isBlank c = true
  head : ∀ c ∈ core.head?, isBlank c = false
  last : ∀ c ∈ core.getLast?, isBlank c = false

section
variable {cs front back : List Char}

theorem trimStart_append (h : ∀ c ∈ front, isBlank c = true) :
    trimStart (front ++ cs) = trimStart cs :=
  List.dropWhile_append_of_pos h

theorem trimEnd_append (h : ∀ c ∈ back, isBlank c = true) : trimEnd (cs ++ back) = trimEnd cs := by
  have hback : ∀ c ∈ back.reverse, isBlank c = true := fun c hc => h c (List.mem_reverse.1 hc)
  rw [trimEnd, List.reverse_append, List.dropWhile_append_of_pos hback, trimEnd]

theorem trimStart_of_head (h : ∀ c ∈ cs.head?, isBlank c = false) : trimStart cs = cs := by
  cases cs with
  | nil => rfl
  | cons c cs => exact trimStart_of_not_blank (h c rfl) cs

theorem trimEnd_eq (cs : List Char) : trimEnd cs = (trimStart cs.reverse).reverse := rfl

theorem trimEnd_of_last (h : ∀ c ∈ cs.getLast?, isBlank c = false) : trimEnd cs = cs := by
  rw [trimEnd_eq, trimStart_of_head fun c hc => h c (by rwa [List.head?_reverse] at hc),
    List.reverse_reverse]

theorem head_trimStart (cs : List Char) : ∀ c ∈ (trimStart cs).head?, isBlank c = false := by
  intro c hc
  have h := List.head?_dropWhile_not isBlank cs
  rw [Option.mem_def, trimStart] at hc
  rwa [hc] at h

theorem last_trimEnd (cs : List Char) : ∀ c ∈ (trimEnd cs).getLast?, isBlank c = false := by
  intro c hc
  rw [trimEnd_eq, List.getLast?_reverse] at hc
  exact head_trimStart cs.reverse c hc

theorem exists_append_trimEnd (cs : List Char) :
    ∃ back, (∀ c ∈ back, isBlank c = true) ∧ cs = trimEnd cs ++ back := by
  obtain ⟨front, hfront, hcs⟩ := trimStart_eq_drop cs.reverse
  refine ⟨front.reverse, fun c hc => hfront c (List.mem_reverse.1 hc), ?_⟩
  rw [trimEnd_eq, ← List.reverse_append, ← hcs, List.reverse_reverse]

end

theorem isCore_trim (cs : List Char) : IsCore cs (trim cs) := by
  obtain ⟨front, hfront, hcs⟩ := trimStart_eq_drop cs
  obtain ⟨back, hback, htrim⟩ := exists_append_trimEnd (trimStart cs)
  refine ⟨⟨front, back, ?_, hfront, hback⟩, fun c hc => ?_, last_trimEnd _⟩
  · rw [trim, ← htrim, ← hcs]
  · -- the text without the blanks in front begins with the same character
    refine head_trimStart cs c ?_
    rw [htrim, List.head?_append]
    unfold trim at hc
    rw [Option.mem_def] at hc ⊢
    rw [hc]
    rfl

theorem IsCore.eq_trim {cs core : List Char} (h : IsCore cs core) : core = trim cs := by
  obtain ⟨front, back, rfl, hfront, hback⟩ := h.around
  rw [trim, trimStart_append hfront]
  cases core with
  | nil => rw [List.nil_append, ← List.append_nil back, trimStart_append hback]; rfl
  | cons c core =>
    rw [trimStart_of_head (show ∀ d ∈ (c :: core ++ back).head?, isBlank d = false from h.head),
      trimEnd_append hback, trimEnd_of_last h.last]

theorem isCore_iff {cs core : List Char} : IsCore cs core ↔ core = trim cs :=
  ⟨IsCore.eq_trim, fun h => h ▸ isCore_trim cs⟩

theorem exists_isCore_iff {cs : List Char} {P : List Char → Prop} :
    (∃ core, IsCore cs core ∧ P core) ↔ P (trim cs) := by
  simp only [isCore_iff, exists_eq_left]

end Rota.Text
