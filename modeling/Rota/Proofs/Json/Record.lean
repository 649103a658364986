import Rota.Json.Reader
import Rota.Json.Writer

/-!
# Records, written and read

A record of texts is read back from what was written, whatever characters the texts hold.

* `Reader.escape_cases`     how a character is written;
* `Reader.string?_escape`   a text is read up to its quote;
* `IsPlain`                 a text or nothing;
* `Reader.field?_eq`, `Reader.fields?_recordRest`   one field, and the further ones;
* `parseRecord?_record`     the whole record, whichever of its fields are looked at.
-/

namespace Rota.Json

namespace Reader

/-! ## texts -/

theorem hex?_hexDigit : ∀ n < 16, hex? (hexDigit n) = some n := by decide

theorem hexFour?_control {n : Nat} (h : n < 32) (rest : List Char) :
    hexFour? ('0' :: '0' :: hexDigit (n / 16) :: hexDigit (n % 16) :: rest) = some (n, rest) := by
  have h0 : hex? '0' = some 0 := rfl
  unfold hexFour?
  simp only [h0, hex?_hexDigit (n / 16) (by omega), hex?_hexDigit (n % 16) (by omega),
    Option.bind_eq_bind, Option.bind_some]
  exact congrArg (fun m => some (m, rest)) (by omega)

theorem escaped?_control {c : Char} (h : c.toNat < 32) (loose : Bool) (rest : List Char) :
    escaped? loose ('u' :: '0' :: '0' :: hexDigit (c.toNat / 16) :: hexDigit (c.toNat % 16) :: rest)
      = some (c, rest) := by
  have hfour := hexFour?_control h rest
  have hlow : c.toNat < 0xD800 ∨ 0xDFFF < c.toNat := .inl (by omega)
  cases loose with
  | true =>
    show looseUnicode? _ = _
    unfold looseUnicode?
    rw [hfour]
    simp only [Option.map_some, if_pos hlow, Char.ofNat_toNat]
  | false =>
    show unicode? _ = _
    unfold unicode?
    rw [hfour]
    simp only [Option.bind_eq_bind, Option.bind_some, if_pos hlow, Char.ofNat_toNat]

theorem escape_cases (c : Char) :
    (∃ e, escape c = '\\' :: e ∧ ∀ loose rest, escaped? loose (e ++ rest) = some (c, rest)) ∨
      (escape c = [c] ∧ c ≠ '"' ∧ c ≠ '\\' ∧ ¬ c.toNat < 32) := by
  have hcode {n : Nat} (h : c.toNat = n) (rest : List Char) :
      some (Char.ofNat n, rest) = some (c, rest) := by
    rw [← h, Char.ofNat_toNat]
  by_cases hquote : c = '"'
  · exact .inl ⟨['"'], by rw [hquote]; rfl, fun _ _ => by rw [hquote]; rfl⟩
  by_cases hslash : c = '\\'
  · exact .inl ⟨['\\'], by rw [hslash]; rfl, fun _ _ => by rw [hslash]; rfl⟩
  by_cases hline : c = '\n'
  · exact .inl ⟨['n'], by rw [hline]; rfl, fun _ _ => by rw [hline]; rfl⟩
  by_cases htab : c = '\t'
  · exact .inl ⟨['t'], by rw [htab]; rfl, fun _ _ => by rw [htab]; rfl⟩
  by_cases hreturn : c = '\r'
  · exact .inl ⟨['r'], by rw [hreturn]; rfl, fun _ _ => by rw [hreturn]; rfl⟩
  rw [escape, if_neg hquote, if_neg hslash, if_neg hline, if_neg htab, if_neg hreturn]
  by_cases hback : c.toNat = 8
  · exact .inl ⟨_, if_pos hback, fun _ => hcode hback⟩
  by_cases hfeed : c.toNat = 12
  · exact .inl ⟨['f'], by rw [if_neg hback, if_pos hfeed], fun _ => hcode hfeed⟩
  rw [if_neg hback, if_neg hfeed]
  by_cases hcontrol : c.toNat < 32
  · exact .inl ⟨_, if_pos hcontrol, escaped?_control hcontrol⟩
  · exact .inr ⟨if_neg hcontrol, hquote, hslash, hcontrol⟩

theorem string?_escape_append (loose : Bool) (fuel : Nat) (c : Char) (cs : List Char) :
    string? loose (fuel + 1) (escape c ++ cs) =
      (string? loose fuel cs).map fun p => (c :: p.1, p.2) := by
  rcases escape_cases c with ⟨e, he, hread⟩ | ⟨he, hquote, hslash, hcontrol⟩
  · rw [he, List.cons_append, string?, if_neg (by decide), if_pos rfl, hread]
    dsimp only [Option.bind_eq_bind, Option.bind_some]
    cases string? loose fuel cs <;> rfl
  · rw [he, List.singleton_append, string?, if_neg hquote, if_neg hslash, if_neg hcontrol]
    cases string? loose fuel cs <;> rfl

theorem string?_escape (loose : Bool) {fuel : Nat} (s rest : List Char) (h : s.length < fuel) :
    string? loose fuel (s.flatMap escape ++ '"' :: rest) = some (s, rest) := by
  induction s generalizing fuel with
  | nil =>
    obtain ⟨fuel, rfl⟩ : ∃ n, fuel = n + 1 := ⟨fuel - 1, by simp at h; omega⟩
    rfl
  | cons c s ih =>
    obtain ⟨fuel, rfl⟩ : ∃ n, fuel = n + 1 := ⟨fuel - 1, by simp at h; omega⟩
    rw [List.flatMap_cons, List.append_assoc, string?_escape_append,
      ih (Nat.succ_lt_succ_iff.1 h)]
    rfl

end Reader

/-! ## fields -/

inductive IsPlain : Json → Prop
  | null : IsPlain .null
  | str (s : String) : IsPlain (.str s)

def recordRest : List (String × Json) → List Char
  | [] => ['\n', '}']
  | f :: fs => [',', '\n'] ++ recordField f ++ recordRest fs

theorem recordFields_append (f : String × Json) (fs : List (String × Json)) :
    recordFields (f :: fs) ++ ['\n', '}'] = recordField f ++ recordRest fs := by
  induction fs generalizing f with
  | nil => rfl
  | cons g fs ih =>
    rw [recordFields, List.append_assoc, ih g, recordRest]
    simp only [List.append_assoc]

namespace Reader

variable {looseKey : Bool} {looseUnder : String → Bool}

theorem length_le_flatMap_escape (s : List Char) : s.length ≤ (s.flatMap escape).length := by
  induction s with
  | nil => exact Nat.le_refl 0
  | cons c s ih =>
    have hc : 1 ≤ (escape c).length := by
      rcases escape_cases c with ⟨e, he, -⟩ | ⟨he, -⟩ <;> simp [he]
    rw [List.flatMap_cons, List.length_append, List.length_cons]
    omega

theorem string?_quoted (loose : Bool) (s : String) (rest : List Char) :
    string? loose ((s.toList.flatMap escape ++ '"' :: rest).length + 1)
      (s.toList.flatMap escape ++ '"' :: rest) = some (s.toList, rest) := by
  have hlen := length_le_flatMap_escape s.toList
  refine string?_escape loose s.toList rest ?_
  rw [List.length_append]
  omega

theorem quoted_append (s : String) (rest : List Char) :
    quoted s ++ rest = '"' :: (s.toList.flatMap escape ++ '"' :: rest) := by
  simp [quoted]

theorem value?_chars {v : Json} (hv : v.IsPlain) (loose : Bool) (fuel : Nat) (rest : List Char) :
    value? loose (fuel + 1) (' ' :: (chars v ++ rest)) = some (v, rest) := by
  cases hv with
  | null => rfl
  | str s =>
    have hskip (cs : List Char) : skip (' ' :: '"' :: cs) = '"' :: cs := rfl
    have hstring := string?_quoted loose s rest
    rw [chars, quoted_append, value?]
    simp only [hskip, hstring, Option.bind_eq_bind, Option.bind_some, String.ofList_toList]

def fieldText (f : String × Json) (rest : List Char) : List Char :=
  '"' :: (f.1.toList.flatMap escape ++ '"' :: (':' :: ' ' :: (chars f.2 ++ rest)))

theorem skip_fieldText (f : String × Json) (rest : List Char) :
    skip (fieldText f rest) = fieldText f rest := rfl

theorem skip_recordField (f : String × Json) (rest : List Char) :
    skip ('\n' :: (recordField f ++ rest)) = fieldText f rest := by
  have hskip (cs : List Char) : skip ('\n' :: ' ' :: ' ' :: '"' :: cs) = '"' :: cs := rfl
  simp [recordField, quoted, hskip, fieldText]

theorem field?_eq (looseKey : Bool) (looseUnder : String → Bool) {f : String × Json}
    (hv : f.2.IsPlain) (fuel : Nat) {cs rest : List Char} (hcs : skip cs = fieldText f rest) :
    field? looseKey looseUnder (fuel + 2) cs = some (f, rest) := by
  have hcolon (cs : List Char) : skip (':' :: cs) = ':' :: cs := rfl
  have hkey := string?_quoted looseKey f.1 (':' :: ' ' :: (chars f.2 ++ rest))
  rw [field?, hcs, fieldText]
  simp only [hkey, hcolon, value?_chars hv, Option.bind_eq_bind, Option.bind_some,
    String.ofList_toList]

theorem fields?_recordRest (looseKey : Bool) (looseUnder : String → Bool)
    {fs : List (String × Json)} (hv : ∀ f ∈ fs, f.2.IsPlain) {fuel : Nat}
    (hf : fs.length + 2 ≤ fuel) :
    fields? looseKey looseUnder fuel (recordRest fs) = some (fs, []) := by
  induction fs generalizing fuel with
  | nil =>
    obtain ⟨fuel, rfl⟩ : ∃ n, fuel = n + 1 := ⟨fuel - 1, by omega⟩
    rfl
  | cons f fs ih =>
    rw [List.length_cons] at hf
    obtain ⟨fuel, rfl⟩ : ∃ n, fuel = n + 3 := ⟨fuel - 3, by omega⟩
    have hskip (cs : List Char) : skip (',' :: cs) = ',' :: cs := rfl
    have htext : recordRest (f :: fs) = ',' :: '\n' :: (recordField f ++ recordRest fs) := by
      simp [recordRest]
    rw [htext, fields?]
    have hrest : fields? looseKey looseUnder (fuel + 2) (recordRest fs) = some (fs, []) :=
      ih (fun g hg => hv g (List.mem_cons_of_mem f hg)) (by omega)
    simp only [hskip, field?_eq looseKey looseUnder (hv f List.mem_cons_self) _
        (skip_recordField f (recordRest fs)), hrest, Option.bind_eq_bind, Option.bind_some]

end Reader

theorem length_le_recordRest (fs : List (String × Json)) : fs.length ≤ (recordRest fs).length := by
  induction fs with
  | nil => exact Nat.zero_le _
  | cons f fs ih =>
    simp only [recordRest, List.length_append, List.length_cons, List.length_nil]
    omega

/-- a record of texts is read back, whichever of its fields are looked at -/
theorem parseRecord?_record (known : List String) {f : String × Json} {fs : List (String × Json)}
    (hv : ∀ g ∈ f :: fs, g.2.IsPlain) :
    parseRecord? known (String.ofList (record (f :: fs))) = some (.obj (f :: fs)) := by
  have htext : record (f :: fs) = '{' :: '\n' :: (recordField f ++ recordRest fs) := by
    rw [record, List.append_assoc, recordFields_append]
    rfl
  have hopen (cs : List Char) : Reader.skip ('{' :: cs) = '{' :: cs := rfl
  have hlen := length_le_recordRest fs
  obtain ⟨fuel, hfuel⟩ : ∃ n,
      2 * ('\n' :: (recordField f ++ recordRest fs)).length + 2 = n + fs.length + 2 := by
    refine ⟨2 * ('\n' :: (recordField f ++ recordRest fs)).length - fs.length, ?_⟩
    simp only [List.length_cons, List.length_append]
    omega
  have hrecord : Reader.record? known ('\n' :: (recordField f ++ recordRest fs))
      = some (.obj (f :: fs), []) := by
    unfold Reader.record?
    simp only [Reader.skip_recordField, hfuel]
    -- no closing brace stands at the front
    show Option.bind (Reader.field? _ _ _ (Reader.fieldText f (recordRest fs))) _ = _
    rw [Reader.field?_eq _ _ (hv f List.mem_cons_self) _
      (Reader.skip_fieldText f (recordRest fs)), Option.bind_some]
    simp only
    rw [Reader.fields?_recordRest _ _ (fun g hg => hv g (List.mem_cons_of_mem f hg)) (by omega)]
    rfl
  rw [parseRecord?, String.toList_ofList, htext, hopen]
  simp only [hrecord]
  rfl

end Rota.Json
