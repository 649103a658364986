import Mathlib
import Rota.Text.Utf8

/-!
# Texts cut off after some bytes

The bytes of a text are read back as the text.  When only the first of them are read, they end between
two characters or inside of one, and a character that is cut off is read as one sign.

* `Leads`                    the bytes of a character that takes several;
* `decode_encodeChar_append`, `decode_take_encodeChar`   how a character is read, whole or cut off;
* `lossy_encode_append`      how a text is read, whatever comes after it;
* `beginning`                what the first bytes of a text are read as;
* `Divides`                  they end inside a character;
* `shows_beginning`          **they show the text up to there, and a sign for that character**.
-/

namespace Rota.Text.Utf8

/-! ## single bytes -/

theorem lead?_one {n : Nat} (h : n ≤ 0x7F) : lead? (UInt8.ofNat n) = none := by
  interval_cases n <;> rfl

theorem lead?_two {n : Nat} (h : 0xC2 ≤ n) (h' : n ≤ 0xDF) :
    lead? (UInt8.ofNat n) = some (UInt8.ofNat 0x80, UInt8.ofNat 0xBF, 1) := by
  interval_cases n <;> rfl

theorem lead?_three {n : Nat} (h : 0xE0 ≤ n) (h' : n ≤ 0xEF) :
    lead? (UInt8.ofNat n) = some (UInt8.ofNat (if n = 0xE0 then 0xA0 else 0x80),
      UInt8.ofNat (if n = 0xED then 0x9F else 0xBF), 2) := by
  interval_cases n <;> rfl

theorem lead?_four {n : Nat} (h : 0xF0 ≤ n) (h' : n ≤ 0xF4) :
    lead? (UInt8.ofNat n) = some (UInt8.ofNat (if n = 0xF0 then 0x90 else 0x80),
      UInt8.ofNat (if n = 0xF4 then 0x8F else 0xBF), 3) := by
  interval_cases n <;> rfl

theorem isTail_ofNat (n : Nat) : isTail (UInt8.ofNat (n % 64 + 128)) = true := by
  have h : n % 64 < 64 := Nat.mod_lt n (by decide)
  generalize n % 64 = m at h
  interval_cases m <;> rfl

theorem not_ofNat_lt {n : Nat} (h : 0x80 ≤ n) (h' : n < 256) : ¬ UInt8.ofNat n < 0x80 := by
  show ¬ UInt8.ofNat n < UInt8.ofNat 0x80
  rw [UInt8.ofNat_lt_iff_lt h' (by decide)]
  omega

theorem ofNat_le {m n : Nat} (h : m ≤ n) (h' : n < 256) : UInt8.ofNat m ≤ UInt8.ofNat n :=
  (UInt8.ofNat_le_iff_le (h.trans_lt h') h').2 h

/-! ## one character -/

theorem encodeChar_of_le {c : Char} (h : c.toNat ≤ 0x7F) :
    String.utf8EncodeChar c = [UInt8.ofNat c.toNat] := by
  rw [String.utf8EncodeChar]
  simp only [Char.toNat_val, if_pos h]

/-- a character of several bytes: its first byte tells how many follow, and those fit -/
structure Leads (c : Char) (b t : UInt8) (ts : List UInt8) : Prop where
  bytes : String.utf8EncodeChar c = b :: t :: ts
  high : ¬ b < 0x80
  range : ∃ low high, lead? b = some (low, high, ts.length + 1) ∧ low ≤ t ∧ t ≤ high
  tails : ∀ u ∈ ts, isTail u = true
  char : (t :: ts).foldl (fun k u => k * 64 + u.toNat % 64) (leadBits b (ts.length + 1)) = c.toNat

theorem leads_two {c : Char} (h : 0x7F < c.toNat) (h' : c.toNat ≤ 0x7FF) :
    Leads c (UInt8.ofNat (c.toNat / 64 % 32 + 192)) (UInt8.ofNat (c.toNat % 64 + 128)) [] where
  bytes := by
    rw [String.utf8EncodeChar]
    simp only [Char.toNat_val]
    rw [if_neg (by omega), if_pos h']
  high := not_ofNat_lt (by omega) (by omega)
  range := ⟨_, _, lead?_two (by omega) (by omega), ofNat_le (by omega) (by omega),
    ofNat_le (by omega) (by omega)⟩
  tails := nofun
  char := by
    show (UInt8.ofNat _).toNat % 32 * 64 + (UInt8.ofNat _).toNat % 64 = c.toNat
    simp only [UInt8.toNat_ofNat']
    omega

theorem leads_three {c : Char} (h : 0x7FF < c.toNat) (h' : c.toNat ≤ 0xFFFF) :
    Leads c (UInt8.ofNat (c.toNat / 4096 % 16 + 224)) (UInt8.ofNat (c.toNat / 64 % 64 + 128))
      [UInt8.ofNat (c.toNat % 64 + 128)] where
  bytes := by
    rw [String.utf8EncodeChar]
    simp only [Char.toNat_val]
    rw [if_neg (by omega), if_neg (by omega), if_pos h']
  high := not_ofNat_lt (by omega) (by omega)
  range := by
    -- no character has a number that the second byte of `0xED` leaves out
    have hvalid : c.toNat < 0xD800 ∨ 0xDFFF < c.toNat ∧ c.toNat < 0x110000 := c.valid
    refine ⟨_, _, lead?_three (by omega) (by omega), ofNat_le ?_ (by omega), ofNat_le ?_ ?_⟩ <;>
      split <;> omega
  tails := by
    intro u hu
    rw [List.mem_singleton.1 hu]
    exact isTail_ofNat _
  char := by
    show ((UInt8.ofNat _).toNat % 16 * 64 + (UInt8.ofNat _).toNat % 64) * 64 +
      (UInt8.ofNat _).toNat % 64 = c.toNat
    simp only [UInt8.toNat_ofNat']
    omega

theorem leads_four {c : Char} (h : 0xFFFF < c.toNat) :
    Leads c (UInt8.ofNat (c.toNat / 262144 % 8 + 240)) (UInt8.ofNat (c.toNat / 4096 % 64 + 128))
      [UInt8.ofNat (c.toNat / 64 % 64 + 128), UInt8.ofNat (c.toNat % 64 + 128)] where
  bytes := by
    rw [String.utf8EncodeChar]
    simp only [Char.toNat_val]
    rw [if_neg (by omega), if_neg (by omega), if_neg (by omega)]
  high := not_ofNat_lt (by omega) (by omega)
  range := by
    have hvalid : c.toNat < 0xD800 ∨ 0xDFFF < c.toNat ∧ c.toNat < 0x110000 := c.valid
    refine ⟨_, _, lead?_four (by omega) (by omega), ofNat_le ?_ (by omega), ofNat_le ?_ ?_⟩ <;>
      split <;> omega
  tails := by
    intro u hu
    rcases List.mem_pair.1 hu with rfl | rfl <;> exact isTail_ofNat _
  char := by
    have hvalid : c.toNat < 0xD800 ∨ 0xDFFF < c.toNat ∧ c.toNat < 0x110000 := c.valid
    show (((UInt8.ofNat _).toNat % 8 * 64 + (UInt8.ofNat _).toNat % 64) * 64 +
      (UInt8.ofNat _).toNat % 64) * 64 + (UInt8.ofNat _).toNat % 64 = c.toNat
    simp only [UInt8.toNat_ofNat']
    omega

theorem exists_leads {c : Char} (h : 0x7F < c.toNat) : ∃ b t ts, Leads c b t ts := by
  rcases Nat.lt_or_ge 0x7FF c.toNat with h2 | h2
  · rcases Nat.lt_or_ge 0xFFFF c.toNat with h3 | h3
    · exact ⟨_, _, _, leads_four h3⟩
    · exact ⟨_, _, _, leads_three h2 h3⟩
  · exact ⟨_, _, _, leads_two h h2⟩

section
variable {c : Char} {b t : UInt8} {ts : List UInt8}

theorem Leads.tail_cons (h : Leads c b t ts) (us : List UInt8) :
    tail b (t :: us) = t :: (us.take ts.length).takeWhile isTail := by
  obtain ⟨low, high, hlead, hlow, hhigh⟩ := h.range
  have hfits : (low ≤ t && t ≤ high) = true := by simp [hlow, hhigh]
  simp only [tail, hlead, if_pos hfits, Nat.add_sub_cancel]

theorem Leads.tail_append (h : Leads c b t ts) (bs : List UInt8) :
    tail b (t :: (ts ++ bs)) = t :: ts := by
  rw [h.tail_cons, List.take_left, List.takeWhile_eq_self_iff.2 h.tails]

theorem Leads.tail_take (h : Leads c b t ts) (k : Nat) :
    tail b ((t :: ts).take k) = (t :: ts).take k := by
  cases k with
  | zero =>
    obtain ⟨low, high, hlead, -⟩ := h.range
    simp only [tail, hlead, List.take_zero]
  | succ k =>
    have hshort : (ts.take k).take ts.length = ts.take k :=
      List.take_of_length_le (List.length_take_le' k ts)
    rw [List.take_succ_cons, h.tail_cons, hshort,
      List.takeWhile_eq_self_iff.2 fun u hu => h.tails u (List.mem_of_mem_take hu)]

theorem Leads.charOf?_eq (h : Leads c b t ts) : charOf? b (t :: ts) = some c := by
  obtain ⟨low, high, hlead, -⟩ := h.range
  simp only [charOf?, if_neg h.high, hlead, List.length_cons, if_pos, h.char, Char.ofNat_toNat]

theorem Leads.charOf?_take (h : Leads c b t ts) {k : Nat} (hk : k ≤ ts.length) :
    charOf? b ((t :: ts).take k) = none := by
  obtain ⟨low, high, hlead, -⟩ := h.range
  have hlength : ((t :: ts).take k).length ≠ ts.length + 1 := by
    rw [List.length_take, List.length_cons]
    omega
  simp only [charOf?, if_neg h.high, hlead, if_neg hlength]

end

/-! ## the bytes of a text -/

/-- fuel beyond the number of bytes changes nothing -/
theorem decodeFrom_eq {m n : Nat} {bs : List UInt8} (hm : bs.length ≤ m) (hn : bs.length ≤ n) :
    decodeFrom m bs = decodeFrom n bs := by
  induction m generalizing n bs with
  | zero =>
    rw [List.eq_nil_of_length_eq_zero (Nat.le_zero.1 hm)]
    cases n <;> rfl
  | succ m ih =>
    cases bs with
    | nil => cases n <;> rfl
    | cons b bs =>
      obtain ⟨n, rfl⟩ := Nat.exists_eq_succ_of_ne_zero (n := n) (by rintro rfl; exact nomatch hn)
      rw [List.length_cons] at hm hn
      have hdrop : (bs.drop (tail b bs).length).length ≤ bs.length := by
        rw [List.length_drop]
        omega
      exact congrArg (charOf? b (tail b bs) :: ·) (ih (by omega) (by omega))

theorem decode_cons (b : UInt8) (bs : List UInt8) :
    decode (b :: bs) = charOf? b (tail b bs) :: decode (bs.drop (tail b bs).length) := by
  have hdrop : (bs.drop (tail b bs).length).length ≤ bs.length := by
    rw [List.length_drop]
    omega
  exact congrArg (charOf? b (tail b bs) :: ·) (decodeFrom_eq hdrop (Nat.le_refl _))

theorem decode_encodeChar_append (c : Char) (bs : List UInt8) :
    decode (String.utf8EncodeChar c ++ bs) = some c :: decode bs := by
  rcases Nat.lt_or_ge 0x7F c.toNat with h | h
  · obtain ⟨b, t, ts, hc⟩ := exists_leads h
    rw [hc.bytes, List.cons_append, decode_cons, List.cons_append, hc.tail_append, hc.charOf?_eq]
    show some c :: decode ((ts ++ bs).drop ts.length) = _
    rw [List.drop_left]
  · have htail : tail (UInt8.ofNat c.toNat) bs = [] := by
      simp only [tail, lead?_one h]
    have hlow : UInt8.ofNat c.toNat < 0x80 :=
      (UInt8.ofNat_lt_iff_lt (h.trans_lt (by decide)) (by decide)).2 (Nat.lt_succ_of_le h)
    rw [encodeChar_of_le h, List.cons_append, List.nil_append, decode_cons, htail]
    simp only [charOf?, if_pos hlow, UInt8.toNat_ofNat_of_lt' (h.trans_lt (by decide)),
      Char.ofNat_toNat, List.length_nil, List.drop_zero]

/-- a character that is cut off is one gap -/
theorem decode_take_encodeChar {c : Char} {k : Nat} (h0 : 0 < k) (hk : k < c.utf8Size) :
    decode ((String.utf8EncodeChar c).take k) = [none] := by
  rw [← String.length_utf8EncodeChar] at hk
  rcases Nat.lt_or_ge 0x7F c.toNat with h | h
  · obtain ⟨b, t, ts, hc⟩ := exists_leads h
    obtain ⟨k, rfl⟩ := Nat.exists_eq_succ_of_ne_zero h0.ne'
    rw [hc.bytes, List.length_cons, List.length_cons] at hk
    rw [hc.bytes, List.take_succ_cons, decode_cons, hc.tail_take, hc.charOf?_take (by omega),
      List.drop_length]
    rfl
  · rw [encodeChar_of_le h, List.length_singleton] at hk
    omega

/-! ## the beginning of a text -/

theorem encode_eq (s : String) : encode s = s.toList.flatMap String.utf8EncodeChar := by
  rw [encode, String.toUTF8, ← String.utf8Encode_toList, List.utf8Encode, List.data_toByteArray,
    List.toList_toArray]

theorem encode_append (s u : String) : encode (s ++ u) = encode s ++ encode u := by
  rw [encode_eq, encode_eq, encode_eq, String.toList_append, List.flatMap_append]

theorem encode_singleton (c : Char) : encode (String.singleton c) = String.utf8EncodeChar c := by
  rw [encode_eq, String.toList_singleton, List.flatMap_singleton]

theorem length_encode (s : String) : (encode s).length = s.utf8ByteSize := rfl

theorem decode_encode_append (s : String) (bs : List UInt8) :
    decode (encode s ++ bs) = s.toList.map some ++ decode bs := by
  rw [encode_eq]
  induction s.toList with
  | nil => rfl
  | cons c cs ih =>
    rw [List.flatMap_cons, List.append_assoc, decode_encodeChar_append, ih, List.map_cons,
      List.cons_append]

theorem decode_encode (s : String) : decode (encode s) = s.toList.map some := by
  have h := decode_encode_append s []
  rwa [List.append_nil, show decode [] = [] from rfl, List.append_nil] at h

theorem lossy_encode_append (s : String) (bs : List UInt8) :
    lossy (encode s ++ bs) = s.toList ++ lossy bs := by
  rw [lossy, decode_encode_append, List.map_append, List.map_map]
  exact congrArg (· ++ lossy bs) (List.map_id _)

def beginning (n : Nat) (s : String) : String := String.ofList (lossy ((encode s).take n))

/-- the first `n` bytes of a text end inside its character `c`, which stands after `before` -/
def Divides (n : Nat) (s before : String) (c : Char) : Prop :=
  before.utf8ByteSize < n ∧ n < before.utf8ByteSize + c.utf8Size ∧
    ∃ after, s = before ++ (String.singleton c ++ after)

/-- what the first `n` bytes of a text show of it -/
inductive Shows (n : Nat) (s : String) : String → Prop
  | whole (h : s.utf8ByteSize ≤ n) : Shows n s s
  | between {before after : String} (hs : s = before ++ after) (h : before.utf8ByteSize = n) :
      Shows n s before
  | inside {before : String} {c : Char} (h : Divides n s before c) :
      Shows n s (before.push replacement)

variable {n : Nat} {s before : String} {c : Char}

theorem beginning_append (before after : String) (k : Nat) :
    beginning (before.utf8ByteSize + k) (before ++ after) = before ++ beginning k after := by
  rw [beginning, encode_append, ← length_encode, List.take_length_add_append, lossy_encode_append,
    String.ofList_append, String.ofList_toList, beginning]

theorem beginning_of_le (h : s.utf8ByteSize ≤ n) : beginning n s = s := by
  have hlossy : lossy (encode s ++ []) = s.toList ++ [] := lossy_encode_append s []
  rw [List.append_nil, List.append_nil] at hlossy
  have hlength : (encode s).length ≤ n := h
  rw [beginning, List.take_of_length_le hlength, hlossy, String.ofList_toList]

theorem Divides.beginning_eq (h : Divides n s before c) :
    beginning n s = before.push replacement := by
  obtain ⟨hlow, hhigh, after, rfl⟩ := h
  obtain ⟨k, rfl⟩ := Nat.exists_eq_add_of_lt hlow
  have hk : k + 1 < c.utf8Size := by omega
  rw [Nat.add_assoc, beginning_append, beginning, encode_append, encode_singleton,
    List.take_append_of_le_length (by rw [String.length_utf8EncodeChar]; omega),
    lossy, decode_take_encodeChar (by omega) hk, String.push_eq_append]
  rfl

theorem Divides.lt_utf8ByteSize (h : Divides n s before c) : n < s.utf8ByteSize := by
  obtain ⟨-, hhigh, after, rfl⟩ := h
  rw [String.utf8ByteSize_append, String.utf8ByteSize_append, String.utf8ByteSize_singleton]
  omega

theorem Divides.append (h : Divides n s before c) (front : String) :
    Divides (front.utf8ByteSize + n) (front ++ s) (front ++ before) c := by
  obtain ⟨hlow, hhigh, after, rfl⟩ := h
  refine ⟨?_, ?_, after, String.append_assoc.symm⟩ <;> rw [String.utf8ByteSize_append] <;> omega

theorem Shows.append {told : String} (h : Shows n s told) (front : String) :
    Shows (front.utf8ByteSize + n) (front ++ s) (front ++ told) := by
  cases h with
  | whole h =>
    refine .whole ?_
    rw [String.utf8ByteSize_append]
    omega
  | between hs h =>
    refine .between (hs ▸ String.append_assoc.symm) ?_
    rw [String.utf8ByteSize_append, h]
  | inside h =>
    rw [String.push_eq_append, ← String.append_assoc, ← String.push_eq_append]
    exact .inside (h.append front)

theorem shows_beginning (n : Nat) (s : String) : Shows n s (beginning n s) := by
  rw [← String.ofList_toList (s := s)]
  induction s.toList generalizing n with
  | nil =>
    have hfits : (String.ofList []).utf8ByteSize ≤ n := Nat.zero_le n
    rw [beginning_of_le hfits]
    exact .whole hfits
  | cons c cs ih =>
    rw [String.ofList_cons]
    rcases Nat.lt_or_ge n c.utf8Size with hcut | hfits
    · -- the first character does not fit, so the limit is before it or inside of it
      rcases Nat.eq_zero_or_pos n with rfl | hpos
      · exact .between String.empty_append.symm rfl
      · have hdivides : Divides n (String.singleton c ++ String.ofList cs) "" c :=
          ⟨hpos, by simpa using hcut, _, String.empty_append.symm⟩
        rw [hdivides.beginning_eq]
        exact .inside hdivides
    · obtain ⟨k, rfl⟩ := Nat.exists_eq_add_of_le hfits
      rw [← String.utf8ByteSize_singleton, beginning_append]
      exact (ih k).append _

end Rota.Text.Utf8
