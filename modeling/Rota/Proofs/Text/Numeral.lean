import Mathlib.Algebra.Group.Nat.Defs
import Mathlib.Data.List.Induction
import Mathlib.Tactic.SplitIfs
import Rota.Text.Blank
import Rota.Text.Numeral

/-!
# Numerals of a width

A numeral that is filled with zeros has its width, its digits and its value, and a reader that takes
digits stops at its end.

* `isBlank_of_isDigit`, `trim_eq_self`   no digit is a blank, and a text without blanks stays whole;
* `Numeral.length_padded`, `Numeral.value_padded`, `Numeral.isDigit_of_mem_padded`   the numeral;
* `Numeral.split_digits`    a run of digits is cut off where the digits end;
* `Numeral.unsigned?_eq_some_iff`   the texts that are read as an unsigned number.
-/

namespace Rota.Text

theorem toNat_of_isDigit {c : Char} (h : c.isDigit = true) : 48 ≤ c.toNat ∧ c.toNat ≤ 57 := by
  simp only [Char.isDigit, Bool.and_eq_true, decide_eq_true_eq] at h
  exact ⟨UInt32.le_iff_toNat_le.1 h.1, UInt32.le_iff_toNat_le.1 h.2⟩

theorem isBlank_of_isDigit {c : Char} (h : c.isDigit = true) : isBlank c = false := by
  obtain ⟨h0, h1⟩ := toNat_of_isDigit h
  simp only [isBlank, blankRanges, List.any_cons, List.any_nil, Bool.or_eq_false_iff,
    Bool.and_eq_false_iff, decide_eq_false_iff_not, and_true]
  omega

theorem trimStart_of_isDigit {c : Char} {cs : List Char} (h : c.isDigit = true) :
    trimStart (c :: cs) = c :: cs :=
  trimStart_of_not_blank (isBlank_of_isDigit h) cs

theorem trimStart_eq_self {cs : List Char} (h : ∀ c ∈ cs, isBlank c = false) :
    trimStart cs = cs := by
  cases cs with
  | nil => rfl
  | cons c cs => exact trimStart_of_not_blank (h c (List.mem_cons_self ..)) cs

theorem trim_eq_self {cs : List Char} (h : ∀ c ∈ cs, isBlank c = false) : trim cs = cs := by
  have hrev : trimStart cs.reverse = cs.reverse :=
    trimStart_eq_self fun c hc => h c (List.mem_reverse.1 hc)
  rw [trim, trimStart_eq_self h, trimEnd]
  show (trimStart cs.reverse).reverse = cs
  rw [hrev, List.reverse_reverse]

namespace Numeral

/-- the text behind a run of digits does not go on with one -/
def Ends (rest : List Char) : Prop := ∀ c ∈ rest.head?, c.isDigit = false

theorem ends_nil : Ends [] := nofun

theorem ends_cons {c : Char} (h : c.isDigit = false) (cs : List Char) : Ends (c :: cs) :=
  fun _ hc => Option.some.inj hc ▸ h

theorem length_text_le {width n : Nat} (hw : 0 < width) (h : n < 10 ^ width) :
    (text n).length ≤ width :=
  (Nat.length_toDigits_le_iff (by decide) hw).2 h

theorem length_padded {width n : Nat} (hw : 0 < width) (h : n < 10 ^ width) :
    (padded width n).length = width := by
  have hlen := length_text_le hw h
  unfold padded
  rw [List.length_append, List.length_replicate]
  omega

theorem padded_ne_nil (width n : Nat) : padded width n ≠ [] :=
  List.append_ne_nil_of_right_ne_nil _ (text_ne_nil n)

theorem isDigit_of_mem_padded {width n : Nat} {c : Char} (h : c ∈ padded width n) :
    c.isDigit = true := by
  rcases List.mem_append.1 h with h | h
  · rw [List.eq_of_mem_replicate h]
    rfl
  · exact isDigit_of_mem_text h

theorem exists_padded_eq_cons (width n : Nat) :
    ∃ c cs, padded width n = c :: cs ∧ c.isDigit = true := by
  cases h : padded width n with
  | nil => exact absurd h (padded_ne_nil width n)
  | cons c cs => exact ⟨c, cs, rfl, isDigit_of_mem_padded (h ▸ List.mem_cons_self)⟩

theorem value_zeros (k : Nat) (ds : List Char) :
    value (List.replicate k '0' ++ ds) = value ds := by
  induction k with
  | zero => rfl
  | succ k ih => exact ih

theorem value_padded (width n : Nat) : value (padded width n) = n :=
  (value_zeros _ _).trans (value_text n)

theorem value_lt {ds : List Char} (h : ∀ c ∈ ds, c.isDigit = true) :
    value ds < 10 ^ ds.length := by
  unfold value
  induction ds using List.reverseRecOn with
  | nil => decide
  | append_singleton ds c ih =>
    have hc := (toNat_of_isDigit (h c (by simp))).2
    have hds := ih fun d hd => h d (List.mem_append_left _ hd)
    rw [Nat.ofDigitChars_append, Nat.ofDigitChars_cons, List.length_append, List.length_singleton,
      Nat.pow_succ]
    show 10 * _ + (c.toNat - 48) < _
    omega

theorem split_digits {ds rest : List Char} (hd : ∀ c ∈ ds, c.isDigit = true) (hr : Ends rest) :
    split (ds ++ rest) = (ds, rest) := by
  have hrest : rest.takeWhile Char.isDigit = [] ∧ rest.dropWhile Char.isDigit = rest := by
    cases rest with
    | nil => exact ⟨rfl, rfl⟩
    | cons c rest =>
      have hc : ¬ c.isDigit = true := by simp [hr c rfl]
      exact ⟨List.takeWhile_cons_of_neg hc, List.dropWhile_cons_of_neg hc⟩
  unfold split
  rw [List.takeWhile_append_of_pos hd, List.dropWhile_append_of_pos hd, hrest.1, hrest.2,
    List.append_nil]

theorem isNumeral_iff {ds : List Char} :
    isNumeral ds = true ↔ ds ≠ [] ∧ ∀ c ∈ ds, c.isDigit = true := by
  simp [isNumeral]

theorem isNumeral_zeros (k : Nat) {ds : List Char} (h : isNumeral ds = true) :
    isNumeral (List.replicate k '0' ++ ds) = true := by
  obtain ⟨hne, hd⟩ := isNumeral_iff.1 h
  refine isNumeral_iff.2 ⟨List.append_ne_nil_of_right_ne_nil _ hne, fun c hc => ?_⟩
  rcases List.mem_append.1 hc with hc | hc
  · rw [List.eq_of_mem_replicate hc]
    rfl
  · exact hd c hc

theorem unsigned?_eq_some_iff {bound n : Nat} {cs : List Char} :
    unsigned? bound cs = some n ↔
      ∃ ds, (cs = ds ∨ cs = '+' :: ds) ∧ isNumeral ds = true ∧ value ds = n ∧ n < bound := by
  have hread (ds : List Char) : (if isNumeral ds then below? bound ds else none) = some n ↔
      isNumeral ds = true ∧ value ds = n ∧ n < bound := by
    unfold below?
    split_ifs with hnumeral hlt
    · rw [Option.some.injEq]
      exact ⟨fun e => ⟨hnumeral, e, e ▸ hlt⟩, fun h => h.2.1⟩
    · exact ⟨nofun, fun h => absurd (h.2.1 ▸ h.2.2) hlt⟩
    · exact ⟨nofun, fun h => absurd h.1 hnumeral⟩
  unfold unsigned?
  split
  case h_1 r =>
    rw [hread]
    constructor
    · exact fun h => ⟨r, .inr rfl, h⟩
    · rintro ⟨ds, rfl | e, h⟩
      · -- a numeral does not begin with a sign
        have hplus := (isNumeral_iff.1 h.1).2 '+' List.mem_cons_self
        exact absurd hplus (by decide)
      · rwa [(List.cons.inj e).2]
  case h_2 hsign =>
    rw [hread]
    constructor
    · exact fun h => ⟨cs, .inl rfl, h⟩
    · rintro ⟨ds, rfl | e, h⟩
      · exact h
      · exact absurd e (hsign ds)

end Numeral

end Rota.Text
