import Rota.Proofs.Json.Record
import Rota.Proofs.Text.Numeral

/-!
# Values, written and read

Every value is read back from its text, however deep it is and whatever characters its strings and keys
hold.

* `Json.induction`           induction on a value: over the values of an array and the fields of an
                             object;
* `Reader.EndsNumber`        what stands behind a number so that it ends there;
* `Reader.number?_integer`, `Reader.number?_decimalChars`   the numbers;
* `Reader.Reads`             a value is read back from its text, whatever follows;
* `Reader.items?_itemsChars`, `Reader.fields?_fieldsChars`   the further values of an array and the
                             further fields of an object;
* `parse?_text`              a whole text.
-/

namespace Rota.Json

open Text Numeral

@[elab_as_elim]
theorem induction {motive : Json → Prop} (null : motive .null) (bool : ∀ b, motive (.bool b))
    (int : ∀ n, motive (.int n)) (decimal : ∀ m e, motive (.decimal m e))
    (str : ∀ s, motive (.str s)) (arr : ∀ vs, (∀ v ∈ vs, motive v) → motive (.arr vs))
    (obj : ∀ fs, (∀ f ∈ fs, motive f.2) → motive (.obj fs)) (j : Json) : motive j := by
  cases j with
  | null => exact null
  | bool b => exact bool b
  | int n => exact int n
  | decimal m e => exact decimal m e
  | str s => exact str s
  | arr vs => exact arr vs fun v _ => induction null bool int decimal str arr obj v
  | obj fs => exact obj fs fun f _ => induction null bool int decimal str arr obj f.2
termination_by sizeOf j
decreasing_by
  · have hv := List.sizeOf_lt_of_mem ‹v ∈ vs›
    simp only [Json.arr.sizeOf_spec]
    omega
  · have hf := List.sizeOf_lt_of_mem ‹f ∈ fs›
    obtain ⟨k, v⟩ := f
    simp only [Json.obj.sizeOf_spec, Prod.mk.sizeOf_spec] at hf ⊢
    omega

/-! ## numerals -/

theorem digitChar_ne_zero : ∀ n < 10, n ≠ 0 → Nat.digitChar n ≠ '0' := by decide

theorem head?_numeral_ne {n : Nat} (h : n ≠ 0) : (Numeral.text n).head? ≠ some '0' := by
  unfold Numeral.text
  induction n using Nat.strongRecOn with
  | ind n ih =>
    by_cases hlt : n < 10
    · rw [Nat.toDigits_of_lt_base hlt]
      exact fun e => digitChar_ne_zero n hlt h (Option.some.inj e)
    · rw [Nat.toDigits_of_base_le (by decide) (by omega)]
      have hhead := ih (n / 10) (by omega) (by omega)
      cases hds : Nat.toDigits 10 (n / 10) with
      | nil => exact absurd hds Nat.toDigits_ne_nil
      | cons d ds =>
        rw [hds] at hhead
        exact hhead

theorem not_zero_led (n : Nat) :
    ¬((Numeral.text n).head? = some '0' ∧ 1 < (Numeral.text n).length) := by
  rintro ⟨hhead, hlen⟩
  by_cases hn : n = 0
  · rw [hn] at hlen
    exact absurd hlen (by decide)
  · exact head?_numeral_ne hn hhead

theorem exists_numeral_eq_cons (n : Nat) :
    ∃ c cs, Numeral.text n = c :: cs ∧ c.isDigit = true := by
  cases h : Numeral.text n with
  | nil => exact absurd h (text_ne_nil n)
  | cons c cs => exact ⟨c, cs, rfl, isDigit_of_mem_text (h ▸ List.mem_cons_self)⟩

namespace Reader

/-- a number before this text ends where the text begins -/
def EndsNumber (rest : List Char) : Prop :=
  ∀ c ∈ rest.head?, c.isDigit = false ∧ c ≠ '.' ∧ c ≠ 'e' ∧ c ≠ 'E'

variable {rest : List Char}

theorem endsNumber_nil : EndsNumber [] := nofun

theorem EndsNumber.ends (h : EndsNumber rest) : Ends rest := fun c hc => (h c hc).1

theorem digits?_text (n : Nat) (h : Ends rest) :
    digits? (Numeral.text n ++ rest) = some (Numeral.text n, rest) := by
  unfold digits?
  simp only [split_digits (fun _ hc => isDigit_of_mem_text hc) h]
  exact if_neg (by simpa using text_ne_nil n)

theorem fraction?_of_endsNumber (h : EndsNumber rest) : fraction? rest = some ([], rest) := by
  unfold fraction?
  split
  case h_1 r => exact absurd rfl (h '.' rfl).2.1
  case h_2 => rfl

theorem exponent?_of_endsNumber (h : EndsNumber rest) : exponent? rest = some (none, rest) := by
  cases rest with
  | nil => rfl
  | cons c rest =>
    obtain ⟨-, -, hlower, hupper⟩ := h c rfl
    exact if_neg (not_or.2 ⟨hlower, hupper⟩)

theorem unsigned?_text (negative : Bool) (n : Nat) (h : EndsNumber rest) :
    unsigned? negative (Numeral.text n ++ rest) =
      some (if negative ∧ n = 0 then .decimal 0 0 else .int (if negative then -(n : Int) else n),
        rest) := by
  unfold unsigned?
  rw [digits?_text n h.ends, Option.bind_eq_bind, Option.bind_some]
  dsimp only
  rw [if_neg (not_zero_led n), fraction?_of_endsNumber h, Option.bind_eq_bind, Option.bind_some]
  dsimp only
  rw [exponent?_of_endsNumber h, Option.bind_some, if_pos ⟨rfl, rfl⟩, value_text]
  dsimp only
  split <;> rfl

theorem exponent?_integer (e : Int) (h : Ends rest) :
    exponent? ('e' :: (integer e ++ rest)) = some (some e, rest) := by
  have hdigits := digits?_text e.natAbs h
  unfold exponent?
  dsimp only
  rw [if_pos (.inl rfl)]
  by_cases hneg : e < 0
  · rw [integer, if_pos hneg, List.cons_append]
    change (digits? (Numeral.text e.natAbs ++ rest)).map _ = _
    rw [hdigits, Option.map_some]
    dsimp only
    rw [value_text, show -(e.natAbs : Int) = e by omega]
  · rw [integer, if_neg hneg]
    obtain ⟨c, cs, hcs, hc⟩ := exists_numeral_eq_cons e.natAbs
    rw [hcs, List.cons_append] at hdigits ⊢
    split
    case h_1 heq =>
      obtain ⟨rfl, -⟩ := List.cons.inj heq
      exact absurd hc (by decide)
    case h_2 heq =>
      obtain ⟨rfl, -⟩ := List.cons.inj heq
      exact absurd hc (by decide)
    case h_3 =>
      rw [hdigits, Option.map_some]
      dsimp only
      rw [← hcs, value_text, show (e.natAbs : Int) = e by omega]

theorem unsigned?_exponent (negative : Bool) (n : Nat) (e : Int) (h : Ends rest) :
    unsigned? negative (Numeral.text n ++ 'e' :: (integer e ++ rest)) =
      some (.decimal (if negative then -(n : Int) else n) e, rest) := by
  have hends : Ends ('e' :: (integer e ++ rest)) := fun c hc => by cases hc; rfl
  have hfraction : fraction? ('e' :: (integer e ++ rest)) =
    some ([], 'e' :: (integer e ++ rest)) := rfl
  unfold unsigned?
  rw [digits?_text n hends, Option.bind_eq_bind, Option.bind_some]
  dsimp only
  rw [if_neg (not_zero_led n), hfraction, Option.bind_eq_bind, Option.bind_some]
  dsimp only
  rw [exponent?_integer e h, Option.bind_some, if_neg (by simp), List.append_nil, value_text]
  dsimp only
  rw [Option.getD_some, List.length_nil, Int.natCast_zero, Int.sub_zero]

theorem number?_integer_append (n : Int) (cs : List Char) :
    number? (integer n ++ cs) = unsigned? (decide (n < 0)) (Numeral.text n.natAbs ++ cs) := by
  by_cases hneg : n < 0
  · rw [integer, if_pos hneg, decide_eq_true hneg]
    rfl
  · rw [integer, if_neg hneg, decide_eq_false hneg]
    obtain ⟨c, ds, hds, hc⟩ := exists_numeral_eq_cons n.natAbs
    rw [hds, List.cons_append, number?]
    rintro r heq
    obtain ⟨rfl, -⟩ := List.cons.inj heq
    exact absurd hc (by decide)

theorem number?_integer (n : Int) (h : EndsNumber rest) :
    number? (integer n ++ rest) = some (.int n, rest) := by
  rw [number?_integer_append, unsigned?_text _ _ h, if_neg (by simp; omega)]
  simp only [decide_eq_true_eq]
  split
  · rw [show -(n.natAbs : Int) = n by omega]
  · rw [show (n.natAbs : Int) = n by omega]

theorem number?_decimalChars (m e : Int) (h : EndsNumber rest) :
    number? (decimalChars m e ++ rest) = some (.decimal m e, rest) := by
  rw [decimalChars, List.append_assoc, List.cons_append, number?_integer_append,
    unsigned?_exponent _ _ _ h.ends]
  simp only [decide_eq_true_eq]
  split
  · rw [show -(m.natAbs : Int) = m by omega]
  · rw [show (m.natAbs : Int) = m by omega]

/-! ## values -/

/-- the value is read back from its text with as much fuel as the text is long, whatever stands behind
it and does not go on with a number -/
def Reads (loose : Bool) (v : Json) : Prop :=
  ∀ fuel rest, (chars v).length ≤ fuel → EndsNumber rest →
    value? loose fuel (chars v ++ rest) = some (v, rest)

theorem skip_of_notSpace {c : Char} {cs : List Char} (h : isSpace c = false) :
    skip (c :: cs) = c :: cs := List.dropWhile_cons_of_neg (by simp [h])

theorem isSpace_of_isDigit {c : Char} (h : c.isDigit = true) : isSpace c = false := by
  cases hs : isSpace c with
  | false => rfl
  | true =>
    simp only [isSpace, Bool.or_eq_true, decide_eq_true_eq] at hs
    rcases hs with ((rfl | rfl) | rfl) | rfl <;> exact absurd h (by decide)

/-- the text of a value begins with a character that is no space and closes no array -/
theorem exists_chars_eq_cons (v : Json) :
    ∃ c cs, chars v = c :: cs ∧ isSpace c = false ∧ c ≠ ']' := by
  have hinteger (n : Int) (cs : List Char) :
      ∃ c ds, integer n ++ cs = c :: ds ∧ isSpace c = false ∧ c ≠ ']' := by
    unfold integer
    split
    · exact ⟨'-', _, rfl, rfl, by decide⟩
    · obtain ⟨c, ds, hds, hc⟩ := exists_numeral_eq_cons n.natAbs
      refine ⟨c, ds ++ cs, by rw [hds]; rfl, isSpace_of_isDigit hc, ?_⟩
      rintro rfl
      exact absurd hc (by decide)
  cases v with
  | null => exact ⟨'n', _, by rw [chars], rfl, by decide⟩
  | bool b => cases b <;> exact ⟨_, _, by rw [chars], rfl, by decide⟩
  | int n =>
    rw [chars, ← List.append_nil (integer n)]
    exact hinteger n []
  | decimal m e =>
    rw [chars, decimalChars]
    exact hinteger m _
  | str s => exact ⟨'"', _, by rw [chars, quoted], rfl, by decide⟩
  | arr vs => cases vs <;> exact ⟨'[', _, by rw [chars], rfl, by decide⟩
  | obj fs => cases fs <;> exact ⟨'{', _, by rw [chars], rfl, by decide⟩

theorem value?_number (loose : Bool) (fuel : Nat) {c : Char} {cs : List Char}
    (h : c = '-' ∨ c.isDigit = true) :
    value? loose (fuel + 1) (c :: cs) = number? (c :: cs) := by
  have hspace : isSpace c = false := by
    rcases h with rfl | h
    · rfl
    · exact isSpace_of_isDigit h
  have hne (d : Char) (hd : d ≠ '-') (hd' : d.isDigit = false) : c ≠ d := by
    rintro rfl
    rcases h with h | h
    · exact hd h
    · exact Bool.false_ne_true (hd'.symm.trans h)
  unfold value?
  rw [skip_of_notSpace hspace]
  split
  case h_1 heq => exact absurd (List.cons.inj heq).1 (hne _ (by decide) rfl)
  case h_2 heq => exact absurd (List.cons.inj heq).1 (hne _ (by decide) rfl)
  case h_3 heq => exact absurd (List.cons.inj heq).1 (hne _ (by decide) rfl)
  case h_4 heq => exact absurd (List.cons.inj heq).1 (hne _ (by decide) rfl)
  case h_5 heq => exact absurd (List.cons.inj heq).1 (hne _ (by decide) rfl)
  case h_6 heq => exact absurd (List.cons.inj heq).1 (hne _ (by decide) rfl)
  case h_7 => rfl

theorem value?_integer (loose : Bool) (fuel : Nat) (n : Int) (cs : List Char) :
    value? loose (fuel + 1) (integer n ++ cs) = number? (integer n ++ cs) := by
  unfold integer
  split
  · exact value?_number loose fuel (.inl rfl)
  · obtain ⟨c, ds, hds, hc⟩ := exists_numeral_eq_cons n.natAbs
    rw [hds]
    exact value?_number loose fuel (.inr hc)

theorem reads_str (loose : Bool) (s : String) : Reads loose (.str s) := by
  intro fuel rest hfuel _
  rw [chars] at hfuel ⊢
  obtain ⟨fuel, rfl⟩ : ∃ n, fuel = n + 1 := ⟨fuel - 1, by
    rw [quoted, List.length_cons] at hfuel
    omega⟩
  have hskip (cs : List Char) : skip ('"' :: cs) = '"' :: cs := rfl
  rw [quoted_append, value?]
  simp only [hskip, string?_quoted, Option.bind_eq_bind, Option.bind_some, String.ofList_toList]

theorem items?_itemsChars (loose : Bool) {vs : List Json} (h : ∀ v ∈ vs, Reads loose v) (fuel : Nat)
    (rest : List Char) (hfuel : (itemsChars vs).length ≤ fuel) :
    items? loose fuel (itemsChars vs ++ rest) = some (vs, rest) := by
  induction vs generalizing fuel with
  | nil =>
    rw [itemsChars] at hfuel ⊢
    obtain ⟨fuel, rfl⟩ : ∃ n, fuel = n + 1 := ⟨fuel - 1, by
      rw [List.length_singleton] at hfuel
      omega⟩
    rw [List.singleton_append, items?]
    rfl
  | cons v vs ih =>
    rw [itemsChars] at hfuel ⊢
    rw [List.length_cons, List.length_append] at hfuel
    obtain ⟨fuel, rfl⟩ : ∃ n, fuel = n + 1 := ⟨fuel - 1, by omega⟩
    have hends : EndsNumber (itemsChars vs ++ rest) := by
      cases vs <;> rw [itemsChars] <;> exact fun c hc => by cases hc; decide
    have hvalue := h v List.mem_cons_self fuel (itemsChars vs ++ rest) (by omega) hends
    have hrest := ih (fun w hw => h w (List.mem_cons_of_mem v hw)) fuel (by omega)
    have hskip (cs : List Char) : skip (',' :: cs) = ',' :: cs := rfl
    rw [List.cons_append, List.append_assoc, items?]
    simp only [hskip, hvalue, hrest, Option.bind_eq_bind, Option.bind_some]

theorem field?_quoted (looseKey : Bool) (looseUnder : String → Bool) {f : String × Json}
    (h : Reads (looseUnder f.1) f.2) (fuel : Nat) {rest : List Char}
    (hfuel : (chars f.2).length ≤ fuel) (hends : EndsNumber rest) :
    field? looseKey looseUnder (fuel + 1) (quoted f.1 ++ ':' :: (chars f.2 ++ rest)) =
      some (f, rest) := by
  have hquote (cs : List Char) : skip ('"' :: cs) = '"' :: cs := rfl
  have hcolon (cs : List Char) : skip (':' :: cs) = ':' :: cs := rfl
  rw [quoted_append, field?]
  simp only [hquote, hcolon, string?_quoted, String.ofList_toList, h fuel rest hfuel hends,
    Option.bind_eq_bind, Option.bind_some]

theorem fields?_fieldsChars (looseKey : Bool) (looseUnder : String → Bool)
    {fs : List (String × Json)} (h : ∀ f ∈ fs, Reads (looseUnder f.1) f.2) (fuel : Nat)
    (rest : List Char) (hfuel : (fieldsChars fs).length ≤ fuel) :
    fields? looseKey looseUnder fuel (fieldsChars fs ++ rest) = some (fs, rest) := by
  induction fs generalizing fuel with
  | nil =>
    rw [fieldsChars] at hfuel ⊢
    obtain ⟨fuel, rfl⟩ : ∃ n, fuel = n + 1 := ⟨fuel - 1, by
      rw [List.length_singleton] at hfuel
      omega⟩
    rw [List.singleton_append, fields?]
    rfl
  | cons f fs ih =>
    rw [fieldsChars] at hfuel ⊢
    rw [List.length_cons, List.length_append, List.length_cons, List.length_append, quoted,
      List.length_cons] at hfuel
    obtain ⟨fuel, rfl⟩ : ∃ n, fuel = n + 2 := ⟨fuel - 2, by omega⟩
    have hends : EndsNumber (fieldsChars fs ++ rest) := by
      cases fs <;> rw [fieldsChars] <;> exact fun c hc => by cases hc; decide
    have hfield := field?_quoted looseKey looseUnder (h f List.mem_cons_self) fuel
      (by omega) hends
    have hrest := ih (fun g hg => h g (List.mem_cons_of_mem f hg)) (fuel + 1) (by omega)
    have hskip (cs : List Char) : skip (',' :: cs) = ',' :: cs := rfl
    rw [List.cons_append, List.append_assoc, List.cons_append, List.append_assoc, fields?]
    simp only [hskip, hfield, hrest, Option.bind_eq_bind, Option.bind_some]

theorem reads_arr (loose : Bool) {vs : List Json} (h : ∀ v ∈ vs, Reads loose v) :
    Reads loose (.arr vs) := by
  intro fuel rest hfuel hends
  cases vs with
  | nil =>
    rw [chars] at hfuel ⊢
    obtain ⟨fuel, rfl⟩ : ∃ n, fuel = n + 1 := ⟨fuel - 1, by
      simp only [List.length_cons] at hfuel
      omega⟩
    rw [value?]
    rfl
  | cons v vs =>
    rw [chars] at hfuel ⊢
    rw [List.length_cons, List.length_append] at hfuel
    obtain ⟨fuel, rfl⟩ : ∃ n, fuel = n + 1 := ⟨fuel - 1, by omega⟩
    have hends' : EndsNumber (itemsChars vs ++ rest) := by
      cases vs <;> rw [itemsChars] <;> exact fun c hc => by cases hc; decide
    have hvalue := h v List.mem_cons_self fuel (itemsChars vs ++ rest) (by omega) hends'
    have hrest := items?_itemsChars loose (fun w hw => h w (List.mem_cons_of_mem v hw)) fuel rest
      (by omega)
    have hopen (cs : List Char) : skip ('[' :: cs) = '[' :: cs := rfl
    obtain ⟨c, cs, hcs, hspace, hclose⟩ := exists_chars_eq_cons v
    rw [List.cons_append, List.append_assoc, value?, hopen]
    rw [hcs, List.cons_append] at hvalue ⊢
    simp only [skip_of_notSpace hspace]
    split
    case h_1 heq => exact absurd (List.cons.inj heq).1 hclose
    case h_2 =>
      simp only [hvalue, hrest, Option.bind_eq_bind, Option.bind_some]

theorem reads_obj (loose : Bool) {fs : List (String × Json)} (h : ∀ f ∈ fs, Reads loose f.2) :
    Reads loose (.obj fs) := by
  intro fuel rest hfuel hends
  cases fs with
  | nil =>
    rw [chars] at hfuel ⊢
    obtain ⟨fuel, rfl⟩ : ∃ n, fuel = n + 1 := ⟨fuel - 1, by
      simp only [List.length_cons] at hfuel
      omega⟩
    rw [value?]
    rfl
  | cons f fs =>
    rw [chars] at hfuel ⊢
    rw [List.length_cons, List.length_append, List.length_cons, List.length_append, quoted,
      List.length_cons] at hfuel
    obtain ⟨fuel, rfl⟩ : ∃ n, fuel = n + 2 := ⟨fuel - 2, by omega⟩
    have hends' : EndsNumber (fieldsChars fs ++ rest) := by
      cases fs <;> rw [fieldsChars] <;> exact fun c hc => by cases hc; decide
    have hfield := field?_quoted loose (fun _ => loose) (h f List.mem_cons_self) fuel
      (by omega) hends'
    have hrest := fields?_fieldsChars loose (fun _ => loose)
      (fun g hg => h g (List.mem_cons_of_mem f hg)) (fuel + 1) rest (by omega)
    have hopen (cs : List Char) : skip ('{' :: cs) = '{' :: cs := rfl
    have hquote (cs : List Char) : skip ('"' :: cs) = '"' :: cs := rfl
    rw [List.cons_append, List.append_assoc, List.cons_append, List.append_assoc, value?, hopen]
    rw [quoted_append] at hfield ⊢
    simp only [hquote]
    split
    case h_1 heq => exact absurd (List.cons.inj heq).1 (by decide)
    case h_2 =>
      simp only [hfield, hrest, Option.bind_eq_bind, Option.bind_some]

theorem reads (loose : Bool) (v : Json) : Reads loose v := by
  have hfuel {cs : List Char} {c : Char} {fuel : Nat} (h : (c :: cs).length ≤ fuel) :
      ∃ n, fuel = n + 1 := ⟨fuel - 1, by
    rw [List.length_cons] at h
    omega⟩
  induction v using Json.induction with
  | null =>
    intro fuel rest h _
    rw [chars] at h ⊢
    obtain ⟨fuel, rfl⟩ := hfuel h
    rw [value?]
    rfl
  | bool b =>
    intro fuel rest h _
    cases b <;>
    · rw [chars] at h ⊢
      obtain ⟨fuel, rfl⟩ := hfuel h
      rw [value?]
      rfl
  | int n =>
    intro fuel rest h hends
    obtain ⟨c, cs, hcs, -⟩ := exists_chars_eq_cons (.int n)
    obtain ⟨fuel, rfl⟩ := hfuel (hcs ▸ h)
    rw [chars, value?_integer, number?_integer n hends]
  | decimal m e =>
    intro fuel rest h hends
    obtain ⟨c, cs, hcs, -⟩ := exists_chars_eq_cons (.decimal m e)
    obtain ⟨fuel, rfl⟩ := hfuel (hcs ▸ h)
    have hnumber := number?_decimalChars m e hends
    rw [decimalChars, List.append_assoc] at hnumber
    rw [chars, decimalChars, List.append_assoc, value?_integer, hnumber]
  | str s => exact reads_str loose s
  | arr vs ih => exact reads_arr loose ih
  | obj fs ih => exact reads_obj loose ih

end Reader

/-- **every value is read back from its text** -/
theorem parse?_text (j : Json) : parse? j.text = some j := by
  have hread := Reader.reads false j (2 * (chars j).length + 2) [] (by omega) Reader.endsNumber_nil
  rw [List.append_nil] at hread
  rw [parse?, text, String.toList_ofList, parseChars?, hread]
  rfl

end Rota.Json
