import Rota.Proofs.Schedule.Acceptance
import Rota.Proofs.Text.Blank
import Rota.Proofs.Text.Letters

/-!
# The texts of intervals, times of day and weekdays

Which texts are read, and as what, said without the readers.  Blanks around a text do not count;
within it nothing is passed over.

* `Interval.Spells`            digits and a unit;
* `parse_interval_iff`         **exactly these texts are read as intervals**, and no count is cut off;
* `TimeOfDay.Spells`           one or two digits, a colon and two digits;
* `Weekday.Spells`             a name, three letters of it, or a number, in letters of either case;
* `parse_time_weekday_iff`     **exactly these texts are read as times of day and as weekdays**.

A text that is not read is refused as the value of its field.
-/

namespace Rota

open Text

/-- where exactly the values with a property are read, what is refused has no such value -/
theorem refused_iff {α : Type} {x : Except ScheduleError α} {P : α → Prop} {field : String}
    (hok : ∀ a, x = .ok a ↔ P a) (herror : ∀ e, x = .error e → e.Names field) :
    (∃ e, x = .error e ∧ e.Names field) ↔ ∀ a, ¬P a := by
  constructor
  · rintro ⟨e, he, -⟩ a ha
    exact nomatch ((hok a).2 ha).symm.trans he
  · intro h
    cases hx : x with
    | error e => exact ⟨e, rfl, herror e hx⟩
    | ok a => exact absurd ((hok a).1 hx) (h a)

/-! ## intervals -/

namespace Interval

def units : List (List Char × Nat) :=
  [([], 1), (['s'], 1), (['m'], 60), (['h'], 3600), (['d'], 86400), (['w'], 604800)]

/-- a text that stands for an interval: a numeral and, right behind it, its unit -/
inductive Spells : List Char → Interval → Prop
  | seconds {ds unit : List Char} {scale : Nat} (digits : Numeral.isNumeral ds = true)
      (isUnit : (unit, scale) ∈ units) (fits : Numeral.value ds * scale < 2 ^ 64) :
      Spells (ds ++ unit) (.seconds (Numeral.value ds * scale))
  | months {ds : List Char} (digits : Numeral.isNumeral ds = true) (one : 1 ≤ Numeral.value ds)
      (fits : Numeral.value ds < 2 ^ 32) : Spells (ds ++ ['M']) (.months (Numeral.value ds))

theorem unitSeconds?_eq_some_iff {unit : List Char} {scale : Nat} :
    unitSeconds? unit = some scale ↔ (unit, scale) ∈ units := by
  unfold unitSeconds? units minute hour day week
  constructor
  · intro h
    split_ifs at h with h0 hm hh hd hw
    · rcases h0 with rfl | rfl <;> simp [← Option.some.inj h]
    · simp [hm, ← Option.some.inj h]
    · simp [hh, ← Option.some.inj h]
    · simp [hd, ← Option.some.inj h]
    · simp [hw, ← Option.some.inj h]
  · intro h
    simp only [List.mem_cons, Prod.mk.injEq, List.not_mem_nil, or_false] at h
    rcases h with ⟨rfl, rfl⟩ | ⟨rfl, rfl⟩ | ⟨rfl, rfl⟩ | ⟨rfl, rfl⟩ | ⟨rfl, rfl⟩ | ⟨rfl, rfl⟩ <;> rfl

theorem of_mem_units {unit : List Char} {scale : Nat} (h : (unit, scale) ∈ units) :
    Numeral.Ends unit ∧ (∀ c ∈ unit, isBlank c = false) ∧ unit ≠ ['M'] ∧ 1 ≤ scale := by
  simp only [units, List.mem_cons, Prod.mk.injEq, List.not_mem_nil, or_false] at h
  rcases h with ⟨rfl, rfl⟩ | ⟨rfl, rfl⟩ | ⟨rfl, rfl⟩ | ⟨rfl, rfl⟩ | ⟨rfl, rfl⟩ | ⟨rfl, rfl⟩
  · exact ⟨Numeral.ends_nil, nofun, by decide, by decide⟩
  all_goals exact ⟨Numeral.ends_cons rfl [], List.forall_mem_singleton.2 rfl, by decide, by decide⟩

theorem ofParts_eq_ok_iff {raw : String} {ds unit : List Char} {i : Interval} :
    ofParts raw ds unit = .ok i ↔ ds ≠ [] ∧
      ((∃ scale, (unit, scale) ∈ units ∧ Numeral.value ds * scale < 2 ^ 64 ∧
          i = .seconds (Numeral.value ds * scale)) ∨
        unit = ['M'] ∧ (1 ≤ Numeral.value ds ∧ Numeral.value ds < 2 ^ 32) ∧
          i = .months (Numeral.value ds)) := by
  have hword : secondsBound = 2 ^ 64 := rfl
  have hhalf : monthsBound = 2 ^ 32 := rfl
  constructor
  · intro h
    unfold ofParts Numeral.below? at h
    split at h
    case isTrue => exact nomatch h
    case isFalse hne =>
      refine ⟨hne, ?_⟩
      split at h
      case h_1 => exact nomatch h
      case h_2 n hn =>
        split_ifs at hn with hlt
        rw [← Option.some.inj hn] at h
        split_ifs at h with hunit hmany hzero
        · exact .inr ⟨hunit, ⟨by omega, by omega⟩, (Except.ok.inj h).symm⟩
        · split at h
          case h_1 => exact nomatch h
          case h_2 scale hscale =>
            split_ifs at h with hfits
            exact .inl ⟨scale, unitSeconds?_eq_some_iff.1 hscale, hfits, (Except.ok.inj h).symm⟩
  · rintro ⟨hne, ⟨scale, hunit, hfits, rfl⟩ | ⟨rfl, ⟨h0, h1⟩, rfl⟩⟩
    · obtain ⟨-, -, hmonths, hscale⟩ := of_mem_units hunit
      have hlt : Numeral.value ds < secondsBound :=
        Nat.lt_of_le_of_lt (Nat.le_mul_of_pos_right _ hscale) hfits
      rw [ofParts, if_neg hne, Numeral.below?, if_pos hlt]
      dsimp only
      rw [if_neg hmonths, unitSeconds?_eq_some_iff.2 hunit]
      exact if_pos hfits
    · have hlt : Numeral.value ds < secondsBound := by omega
      rw [ofParts, if_neg hne, Numeral.below?, if_pos hlt]
      dsimp only
      rw [if_pos rfl, if_neg (by omega), if_neg (by omega)]

theorem parse_eq_error {raw : String} {e : ScheduleError} (h : parse raw = .error e) :
    e.Names "interval" := by
  unfold parse ofParts at h
  dsimp only at h
  split at h
  · exact Except.error.inj h ▸ rfl
  · split at h
    · exact Except.error.inj h ▸ rfl
    · split_ifs at h
      · exact Except.error.inj h ▸ rfl
      · exact Except.error.inj h ▸ rfl
      · split at h
        · exact Except.error.inj h ▸ rfl
        · split_ifs at h
          exact Except.error.inj h ▸ rfl

theorem spells_append_iff {ds unit : List Char} {i : Interval} (hd : ∀ c ∈ ds, c.isDigit = true)
    (hu : Numeral.Ends unit) : Spells (ds ++ unit) i ↔ ds ≠ [] ∧
      ((∃ scale, (unit, scale) ∈ units ∧ Numeral.value ds * scale < 2 ^ 64 ∧
          i = .seconds (Numeral.value ds * scale)) ∨
        unit = ['M'] ∧ (1 ≤ Numeral.value ds ∧ Numeral.value ds < 2 ^ 32) ∧
          i = .months (Numeral.value ds)) := by
  have hmonths : Numeral.Ends ['M'] := Numeral.ends_cons rfl []
  -- the digits of a text and what follows them are determined
  have hparts {ds' unit' : List Char} (h : Numeral.isNumeral ds' = true)
      (hu' : Numeral.Ends unit') (e : ds' ++ unit' = ds ++ unit) : ds' = ds ∧ unit' = unit := by
    have hsplit := Numeral.split_digits (Numeral.isNumeral_iff.1 h).2 hu'
    rw [e, Numeral.split_digits hd hu] at hsplit
    exact ⟨(congrArg Prod.fst hsplit).symm, (congrArg Prod.snd hsplit).symm⟩
  constructor
  · generalize hcs : ds ++ unit = cs
    intro h
    cases h with
    | seconds digits isUnit fits =>
      obtain ⟨rfl, rfl⟩ := hparts digits (of_mem_units isUnit).1 hcs.symm
      exact ⟨(Numeral.isNumeral_iff.1 digits).1, .inl ⟨_, isUnit, fits, rfl⟩⟩
    | months digits one fits =>
      obtain ⟨rfl, rfl⟩ := hparts digits hmonths hcs.symm
      exact ⟨(Numeral.isNumeral_iff.1 digits).1, .inr ⟨rfl, ⟨one, fits⟩, rfl⟩⟩
  · rintro ⟨hne, ⟨scale, hunit, hfits, rfl⟩ | ⟨rfl, ⟨h0, h1⟩, rfl⟩⟩
    · exact .seconds (Numeral.isNumeral_iff.2 ⟨hne, hd⟩) hunit hfits
    · exact .months (Numeral.isNumeral_iff.2 ⟨hne, hd⟩) h0 h1

theorem parse_eq_ok_iff {raw : String} {i : Interval} :
    parse raw = .ok i ↔ Spells (trim raw.toList) i := by
  have hdigits : ∀ c ∈ (Numeral.split (trim raw.toList)).1, c.isDigit = true :=
    List.all_eq_true.1 List.all_takeWhile
  have hends : Numeral.Ends (Numeral.split (trim raw.toList)).2 := by
    intro c hc
    have h := List.head?_dropWhile_not Char.isDigit (trim raw.toList)
    rw [Option.mem_def, Numeral.split] at hc
    rwa [hc] at h
  have hsplit := Numeral.split_append (trim raw.toList)
  rw [parse, ofParts_eq_ok_iff, ← spells_append_iff hdigits hends, hsplit]

theorem Spells.zeros (k : Nat) {cs : List Char} {i : Interval} (h : Spells cs i) :
    Spells (List.replicate k '0' ++ cs) i := by
  cases h with
  | seconds digits isUnit fits =>
    rw [← List.append_assoc, ← Numeral.value_zeros k]
    exact .seconds (Numeral.isNumeral_zeros k digits) isUnit (by rwa [Numeral.value_zeros])
  | months digits one fits =>
    rw [← List.append_assoc, ← Numeral.value_zeros k]
    exact .months (Numeral.isNumeral_zeros k digits) (by rwa [Numeral.value_zeros])
      (by rwa [Numeral.value_zeros])

theorem Spells.not_blank {cs : List Char} {i : Interval} (h : Spells cs i) :
    ∀ c ∈ cs, isBlank c = false := by
  have hdigits {ds : List Char} (digits : Numeral.isNumeral ds = true) :
      ∀ c ∈ ds, isBlank c = false := fun c hc =>
    isBlank_of_isDigit ((Numeral.isNumeral_iff.1 digits).2 c hc)
  cases h with
  | seconds digits isUnit fits =>
    exact List.forall_mem_append.2 ⟨hdigits digits, (of_mem_units isUnit).2.1⟩
  | months digits one fits =>
    exact List.forall_mem_append.2 ⟨hdigits digits, List.forall_mem_singleton.2 rfl⟩

end Interval

/-- A text is read as an interval exactly when it is, apart from the blanks around it, a numeral
with a unit and the interval has few enough seconds or months; it is read as that interval, and with
more zeros in front as the same one.  Every other text is refused as an interval. -/
theorem parse_interval_iff (raw : String) :
    (∀ i, Interval.parse raw = .ok i ↔
      ∃ core, IsCore raw.toList core ∧ Interval.Spells core i) ∧
    ((∃ e, Interval.parse raw = .error e ∧ e.Names "interval") ↔
      ∀ i, ¬∃ core, IsCore raw.toList core ∧ Interval.Spells core i) ∧
    ∀ core i k, IsCore raw.toList core → Interval.parse raw = .ok i →
      Interval.parse (String.ofList (List.replicate k '0' ++ core)) = .ok i := by
  have hok (i : Interval) : Interval.parse raw = .ok i ↔
      ∃ core, IsCore raw.toList core ∧ Interval.Spells core i := by
    rw [exists_isCore_iff, Interval.parse_eq_ok_iff]
  refine ⟨hok, refused_iff hok fun _ => Interval.parse_eq_error, fun core i k hcore hi => ?_⟩
  rw [Interval.parse_eq_ok_iff, ← hcore.eq_trim] at hi
  have hzeros := hi.zeros k
  rw [Interval.parse_eq_ok_iff, String.toList_ofList, trim_eq_self hzeros.not_blank]
  exact hzeros

/-- seven minutes, between blanks and behind zeros -/
theorem parse_interval_iff_minutes :
    IsCore "\u30007m\n".toList ['7', 'm'] ∧ Interval.Spells ['7', 'm'] (.seconds 420) ∧
      Interval.parse "\u30007m\n" = .ok (.seconds 420) ∧
      Interval.parse "0007m" = .ok (.seconds 420) := by
  obtain ⟨hok, -, hzeros⟩ := parse_interval_iff "\u30007m\n"
  have hcore : IsCore "\u30007m\n".toList ['7', 'm'] := isCore_iff.2 (by decide +kernel)
  have hspells : Interval.Spells ['7', 'm'] (.seconds 420) :=
    @Interval.Spells.seconds ['7'] ['m'] 60 rfl (by decide) (by decide)
  have hi := (hok _).2 ⟨_, hcore, hspells⟩
  exact ⟨hcore, hspells, hi, hzeros _ _ 3 hcore hi⟩

/-- the longest interval there is, and a second more -/
example : (Interval.parse "18446744073709551615s", Interval.parse "18446744073709551616") =
    (.ok (.seconds 18446744073709551615),
      .error (.invalidValue (.tooLarge "18446744073709551616"))) := by
  decide +kernel

/-! ## times of day -/

/-- a text that stands for a time of day -/
inductive TimeOfDay.Spells : List Char → TimeOfDay → Prop
  | mk {hours minutes : List Char} {t : TimeOfDay} (short : hours.length = 1 ∨ hours.length = 2)
      (hourDigits : ∀ c ∈ hours, c.isDigit = true) (two : minutes.length = 2)
      (minuteDigits : ∀ c ∈ minutes, c.isDigit = true) (hour : Numeral.value hours = t.hour)
      (minute : Numeral.value minutes = t.minute) : Spells (hours ++ ':' :: minutes) t

namespace TimeOfDay

theorem ofNumbers?_eq_some_iff {hour minute : Nat} {t : TimeOfDay} :
    ofNumbers? hour minute = some t ↔ hour = t.hour ∧ minute = t.minute := by
  unfold ofNumbers?
  split
  case isTrue h =>
    rw [Option.some.injEq]
    constructor
    · rintro rfl
      exact ⟨rfl, rfl⟩
    · rintro ⟨rfl, rfl⟩
      rfl
  case isFalse h =>
    refine ⟨nofun, ?_⟩
    rintro ⟨rfl, rfl⟩
    exact absurd ⟨t.hour.isLt, t.minute.isLt⟩ h

theorem ofChars?_append {hours minutes : List Char} (h : ∀ c ∈ hours, c ≠ ':') :
    ofChars? (hours ++ ':' :: minutes) =
      if (hours.length = 1 ∨ hours.length = 2) ∧ hours.all Char.isDigit
          ∧ minutes.length = 2 ∧ minutes.all Char.isDigit then
        ofNumbers? (Numeral.value hours) (Numeral.value minutes)
      else none := by
  have hbefore : ∀ c ∈ hours, decide (c ≠ ':') = true := fun c hc => decide_eq_true (h c hc)
  unfold ofChars?
  rw [List.takeWhile_append_of_pos hbefore, List.dropWhile_append_of_pos hbefore,
    List.takeWhile_cons_of_neg (by decide), List.dropWhile_cons_of_neg (by decide), List.append_nil]

theorem ofChars?_eq_some_iff {cs : List Char} {t : TimeOfDay} :
    ofChars? cs = some t ↔ Spells cs t := by
  constructor
  · intro h
    have hcs : cs.takeWhile (· ≠ ':') ++ cs.dropWhile (· ≠ ':') = cs :=
      List.takeWhile_append_dropWhile
    have hbefore : ∀ c ∈ cs.takeWhile (· ≠ ':'), c ≠ ':' := fun c hc =>
      of_decide_eq_true (List.all_eq_true.1 List.all_takeWhile c hc)
    cases hrest : cs.dropWhile (· ≠ ':') with
    | nil =>
      unfold ofChars? at h
      rw [hrest] at h
      exact nomatch h
    | cons colon minutes =>
      have hcolon : colon = ':' := by
        have hhead := List.head?_dropWhile_not (fun c => decide (c ≠ ':')) cs
        rw [hrest] at hhead
        exact not_not.1 (of_decide_eq_false hhead)
      subst hcolon
      rw [hrest] at hcs
      rw [← hcs, ofChars?_append hbefore] at h
      split_ifs at h with hform
      obtain ⟨hshort, hh, htwo, hm⟩ := hform
      obtain ⟨hour, minute⟩ := ofNumbers?_eq_some_iff.1 h
      rw [← hcs]
      exact .mk hshort (List.all_eq_true.1 hh) htwo (List.all_eq_true.1 hm) hour minute
  · rintro ⟨hshort, hh, htwo, hm, hour, minute⟩
    rw [ofChars?_append fun c hc e => ?_]
    · rw [if_pos ⟨hshort, List.all_eq_true.2 hh, htwo, List.all_eq_true.2 hm⟩]
      exact ofNumbers?_eq_some_iff.2 ⟨hour, minute⟩
    · -- a colon is no digit
      rw [e] at hc
      exact absurd (hh ':' hc) (by decide)

theorem parse_eq_ok_iff {raw : String} {t : TimeOfDay} :
    parse raw = .ok t ↔ Spells (trim raw.toList) t := by
  rw [← ofChars?_eq_some_iff, parse]
  cases ofChars? (trim raw.toList) with
  | none => exact ⟨nofun, nofun⟩
  | some t' => rw [Except.ok.injEq, Option.some.injEq]

end TimeOfDay

/-! ## weekdays -/

/-- a text that stands for a weekday; the case of its letters does not count -/
inductive Weekday.Spells (cs : List Char) (d : Weekday) : Prop
  | name (h : cs.map Char.toLower = d.name.toList)
  | short (h : cs.map Char.toLower = d.name.toList.take 3)
  | number {ds : List Char} (sign : cs = ds ∨ cs = '+' :: ds)
      (digits : Numeral.isNumeral ds = true) (value : Numeral.value ds = d.number)

namespace Weekday

theorem ofNumber_eq_ok_iff {n : Nat} {d : Weekday} : ofNumber n = .ok d ↔ n = d.number := by
  have hnumber : ofNumber? n = some d ↔ n = d.number := by
    rw [← ofNumber?_number d, ofNumber?, ofNumber?, eq_comm, eq_comm (a := n)]
    exact List.getElem?_inj d.number_lt (by decide)
  rw [← hnumber, ofNumber]
  cases ofNumber? n with
  | none => exact ⟨nofun, nofun⟩
  | some d' => rw [Except.ok.injEq, Option.some.injEq]

theorem ofName?_eq_some_iff {cs : List Char} {d : Weekday} :
    ofName? cs = some d ↔ cs = d.name.toList ∨ cs = d.name.toList.take 3 := by
  constructor
  · intro h
    simpa using List.find?_some h
  · rintro (rfl | rfl)
    · exact ofName?_name d
    · cases d <;> decide

theorem unsigned?_of_name {bound : Nat} {cs : List Char} {d : Weekday}
    (h : cs = d.name.toList ∨ cs = d.name.toList.take 3) : Numeral.unsigned? bound cs = none := by
  rcases h with rfl | rfl <;> cases d <;> rfl

theorem spells_iff {cs : List Char} {d : Weekday} : Spells cs d ↔
    ofName? (cs.map Char.toLower) = some d ∨
      Numeral.unsigned? UInt32.size cs = some d.number := by
  rw [ofName?_eq_some_iff, Numeral.unsigned?_eq_some_iff]
  have hfits : d.number < UInt32.size := Nat.lt_trans d.number_lt (by decide)
  constructor
  · rintro (h | h | ⟨sign, digits, value⟩)
    · exact .inl (.inl h)
    · exact .inl (.inr h)
    · exact .inr ⟨_, sign, digits, value, hfits⟩
  · rintro ((h | h) | ⟨_, sign, digits, value, -⟩)
    · exact .name h
    · exact .short h
    · exact .number sign digits value

theorem parse_eq_ok_iff {raw : String} {d : Weekday} :
    parse raw = .ok d ↔ Spells (trim raw.toList) d := by
  rw [spells_iff, parse, Numeral.unsigned?_map_toLower]
  cases hn : Numeral.unsigned? UInt32.size (trim raw.toList) with
  | some n =>
    have hname : ofName? ((trim raw.toList).map Char.toLower) ≠ some d := fun h => by
      have hnone : Numeral.unsigned? UInt32.size _ = none :=
        unsigned?_of_name (ofName?_eq_some_iff.1 h)
      rw [Numeral.unsigned?_map_toLower, hn] at hnone
      exact Option.some_ne_none n hnone
    rw [or_iff_right hname, Option.some.injEq]
    exact ofNumber_eq_ok_iff
  | none =>
    rw [or_iff_left (Option.some_ne_none _).symm]
    cases ofName? ((trim raw.toList).map Char.toLower) with
    | none => simp only [reduceCtorEq]
    | some d' => rw [Except.ok.injEq, Option.some.injEq]

end Weekday

/-- a text is a time of day exactly where it reads, without the blanks around it, as one or two
digits, a colon and two digits, within the day; and it is a weekday exactly where it reads as a
name, the first three letters of one, or a number from Sunday.  Anything else is refused as the
value of its field -/
theorem parse_time_weekday_iff (raw : String) :
    (∀ t, TimeOfDay.parse raw = .ok t ↔ ∃ core, IsCore raw.toList core ∧ TimeOfDay.Spells core t) ∧
      ((∃ e, TimeOfDay.parse raw = .error e ∧ e.Names "time") ↔
        ∀ t, ¬∃ core, IsCore raw.toList core ∧ TimeOfDay.Spells core t) ∧
      (∀ d, Weekday.parse raw = .ok d ↔ ∃ core, IsCore raw.toList core ∧ Weekday.Spells core d) ∧
      ((∃ e, Weekday.parse raw = .error e ∧ e.Names "wday") ↔
        ∀ d, ¬∃ core, IsCore raw.toList core ∧ Weekday.Spells core d) := by
  have htime (t : TimeOfDay) : TimeOfDay.parse raw = .ok t ↔
      ∃ core, IsCore raw.toList core ∧ TimeOfDay.Spells core t := by
    rw [exists_isCore_iff, TimeOfDay.parse_eq_ok_iff]
  have hday (d : Weekday) : Weekday.parse raw = .ok d ↔
      ∃ core, IsCore raw.toList core ∧ Weekday.Spells core d := by
    rw [exists_isCore_iff, Weekday.parse_eq_ok_iff]
  exact ⟨htime, refused_iff htime fun _ => ScheduleConfig.parseTime_eq_error, hday,
    refused_iff hday fun _ => ScheduleConfig.resolve_eq_error (w := .name raw)⟩

example : (Weekday.parse "\u3000+0006", Weekday.parse "tuesd", Weekday.parse "7") =
    (.ok .saturday, .error (.invalidValue (.notWeekday "tuesd")),
      .error (.invalidValue (.weekdayOutside 7))) := by
  decide +kernel

end Rota
