import Rota.Proofs.Json.Text
import Rota.Proofs.Schedule.Fingerprint
import Rota.Settings.Json
import Mathlib.Tactic.SplitIfs

/-!
# Settings, encoded and decoded

What settings are decoded from need not be what they are encoded to: defaults are filled in, seconds
are read from numbers and written with a unit, a kind may be told by its place.  What was decoded once
is decoded again from what it is encoded to, though.

* `Json.Lossless`             a decoder reads again what it read, from what the encoder writes;
* `Json.Lossless.list`, `Json.Lossless.optional`, `Json.Lossless.orDefault`, `Json.Lossless.present`
  for lists and for the fields of a record;
* `Interval.parse_text`       an interval is read from its text, whatever unit that has;
* `ScheduleConfig.lossless`, `AgentSettings.lossless`, `ModuleSettings.lossless`,
  `Settings.lossless`         the records, each from its fields;
* `settings_survive_json`     settings, modules and schedules, as values and as texts.
-/

namespace Rota

open Text

namespace Json

/-! ## decoders and encoders -/

/-- what is decoded is decoded again, from what it is encoded to -/
def Lossless {α : Type} (decode : Json → Except Fault α) (encode : α → Json) : Prop :=
  ∀ j a, decode j = .ok a → decode (encode a) = .ok a

theorem shaped_eq_ok {α : Type} {f : Json → Option α} {j : Json} {a : α} :
    shaped f j = .ok a ↔ f j = some a := by
  unfold shaped
  cases f j with
  | none => exact ⟨nofun, nofun⟩
  | some b => rw [Except.ok.injEq, Option.some.injEq]

theorem lossless_str : Lossless (shaped str?) .str := fun _ _ _ => rfl

theorem lossless_bool : Lossless (shaped bool?) .bool := fun _ _ _ => rfl

theorem lt_of_nat?_eq_some {bound n : Nat} {j : Json} (h : j.nat? bound = some n) : n < bound := by
  unfold nat? at h
  split at h
  case h_1 =>
    split at h
    case isTrue hn =>
      have hn' := Option.some.inj h
      omega
    case isFalse => exact nomatch h
  case h_2 => exact nomatch h

theorem lossless_nat (bound : Nat) : Lossless (shaped (nat? bound)) .ofNat := fun _ _ h =>
  shaped_eq_ok.2 (nat?_ofNat (lt_of_nat?_eq_some (shaped_eq_ok.1 h)))

section
variable {α : Type} {decode : Json → Except Fault α} {encode : α → Json}

theorem Lossless.each (h : Lossless decode encode) {vs : List Json} {as : List α}
    (has : Json.each decode vs = .ok as) : Json.each decode (as.map encode) = .ok as := by
  induction vs generalizing as with
  | nil =>
    cases has
    rfl
  | cons v vs ih =>
    obtain ⟨a, ha, has⟩ := bind_eq_ok.1 has
    obtain ⟨bs, hbs, has⟩ := bind_eq_ok.1 has
    cases has
    exact bind_eq_ok.2 ⟨a, h v a ha, bind_eq_ok.2 ⟨bs, ih hbs, rfl⟩⟩

theorem Lossless.list (h : Lossless decode encode) :
    Lossless (Json.list decode) fun as => .arr (as.map encode) := by
  intro j as has
  obtain ⟨vs, -, has⟩ := bind_eq_ok.1 has
  exact bind_eq_ok.2 ⟨_, rfl, h.each has⟩

/-! ## fields -/

variable {key : String} {fields out : List (String × Json)}

/-- a field that may be missing can be written as `null` as well as left out -/
theorem Lossless.optional (h : Lossless decode encode) (hnull : ∀ a, encode a ≠ .null)
    {x : Option α} (hx : Json.optional key decode fields = .ok x)
    (hout : (lookup? key out).getD .null = ofOption encode x) :
    Json.optional key decode out = .ok x := by
  have hread : ∀ a, x = some a → decode (encode a) = .ok a := by
    rintro a rfl
    unfold Json.optional at hx
    split at hx
    case h_1 => exact nomatch hx
    case h_2 => exact nomatch hx
    case h_3 v _ _ =>
      obtain ⟨_, hv, ha⟩ := map_eq_ok.1 hx
      cases ha
      exact h v a hv
  unfold Json.optional
  split
  case h_1 heq =>
    cases x with
    | none => rfl
    | some a =>
      rw [heq] at hout
      exact absurd hout.symm (hnull a)
  case h_2 heq =>
    cases x with
    | none => rfl
    | some a =>
      rw [heq] at hout
      exact absurd hout.symm (hnull a)
  case h_3 v hne heq =>
    rw [heq, Option.getD_some] at hout
    subst hout
    cases x with
    | none => exact absurd rfl hne
    | some a => exact map_eq_ok.2 ⟨a, hread a rfl, rfl⟩

theorem Lossless.orDefault (h : Lossless decode encode) {default a : α}
    (hdefault : decode (encode default) = .ok default)
    (ha : Json.orDefault key default decode fields = .ok a)
    (hout : lookup? key out = some (encode a)) : Json.orDefault key default decode out = .ok a := by
  unfold Json.orDefault at ha ⊢
  rw [hout]
  split at ha
  case h_1 =>
    cases ha
    exact hdefault
  case h_2 v _ => exact h v a ha

theorem Lossless.required (h : Lossless decode encode) {a : α}
    (ha : Json.required key decode fields = .ok a) (hout : lookup? key out = some (encode a)) :
    Json.required key decode out = .ok a := by
  unfold Json.required at ha ⊢
  rw [hout]
  split at ha
  case h_1 => exact nomatch ha
  case h_2 v _ => exact h v a ha

theorem Lossless.present (h : Lossless decode encode) {a : α}
    (ha : Json.present key decode fields = .ok (some a)) (hout : lookup? key out = some (encode a)) :
    Json.present key decode out = .ok (some a) := by
  unfold Json.present at ha ⊢
  rw [hout]
  split at ha
  case h_1 => exact nomatch ha
  case h_2 v _ =>
    obtain ⟨_, hv, hb⟩ := map_eq_ok.1 ha
    cases hb
    exact map_eq_ok.2 ⟨a, h v a hv, rfl⟩

end

theorem getD_map_null {α : Type} (encode : α → Json) (x : Option α) :
    (x.map encode).getD .null = ofOption encode x := by
  cases x <;> rfl

@[simp]
theorem lookup?_cons (key name : String) (v : Json) (fs : List (String × Json)) :
    lookup? key ((name, v) :: fs) =
      (lookup? key fs).or (if name == key then some v else none) := by
  rw [lookup?]
  cases lookup? key fs <;> rfl

@[simp]
theorem lookup?_append (key : String) (fs gs : List (String × Json)) :
    lookup? key (fs ++ gs) = (lookup? key gs).or (lookup? key fs) := by
  induction fs with
  | nil => exact (Option.or_none).symm
  | cons f fs ih =>
    rw [List.cons_append, lookup?, ih, lookup?]
    cases lookup? key gs <;> rfl

@[simp]
theorem lookup?_fieldOf {α : Type} (key name : String) (encode : α → Json) (x : Option α) :
    lookup? key (fieldOf name encode x) = if name == key then x.map encode else none := by
  cases x <;> simp [fieldOf, lookup?]

end Json

/-! ## intervals -/

namespace Interval

/-- the intervals that configurations can name: seconds below `2^64`, and at least one month and fewer
than `2^32` -/
def InRange : Interval → Prop
  | .seconds n => n < secondsBound
  | .months n => 1 ≤ n ∧ n < monthsBound

theorem unit_of_unitSeconds? {u : Char} {scale : Nat} (h : unitSeconds? [u] = some scale) :
    isBlank u = false ∧ u.isDigit = false ∧ [u] ≠ ['M'] ∧ 1 ≤ scale := by
  simp only [unitSeconds?, List.cons.injEq, and_true, reduceCtorEq, false_or] at h
  split_ifs at h with hs hm hh hd hw <;> cases h
  · subst hs
    decide
  · subst hm
    decide
  · subst hh
    decide
  · subst hd
    decide
  · subst hw
    decide

theorem parse_numeral (n : Nat) {u : Char} (hblank : isBlank u = false) (hdigit : u.isDigit = false) :
    parse (String.ofList (Numeral.text n ++ [u])) =
      ofParts (String.ofList (Numeral.text n ++ [u])) (Numeral.text n) [u] := by
  have htrim : trim (Numeral.text n ++ [u]) = Numeral.text n ++ [u] := by
    refine trim_eq_self fun c hc => ?_
    rcases List.mem_append.1 hc with hc | hc
    · exact isBlank_of_isDigit (Numeral.isDigit_of_mem_text hc)
    · rw [List.mem_singleton.1 hc]
      exact hblank
  have hends : Numeral.Ends [u] := fun c hc => by
    cases hc
    exact hdigit
  have hsplit : Numeral.split (Numeral.text n ++ [u]) = (Numeral.text n, [u]) :=
    Numeral.split_digits (fun _ hc => Numeral.isDigit_of_mem_text hc) hends
  unfold parse
  simp only [String.toList_ofList, htrim, hsplit]

theorem below?_text {bound n : Nat} (h : n < bound) :
    Numeral.below? bound (Numeral.text n) = some n := by
  rw [Numeral.below?, Numeral.value_text, if_pos h]

/-- **an interval is read from its text**, whatever unit divides it -/
theorem parse_text {i : Interval} (h : i.InRange) : parse i.text = .ok i := by
  obtain ⟨n, u, hchars, ⟨rfl, rfl⟩ | ⟨scale, hscale, rfl⟩⟩ := i.exists_numeral
  · have hword : n < secondsBound := h.2.trans (by decide)
    rw [text, hchars, parse_numeral n (by decide) (by decide), ofParts,
      if_neg (Numeral.text_ne_nil n), below?_text hword]
    dsimp only
    rw [if_pos rfl, if_neg (by exact Nat.not_le.2 h.2), if_neg (by have := h.1; omega)]
  · obtain ⟨hblank, hdigit, hmonths, hpos⟩ := unit_of_unitSeconds? hscale
    have hword : n < secondsBound := Nat.lt_of_le_of_lt (Nat.le_mul_of_pos_right n hpos) h
    rw [text, hchars, parse_numeral n hblank hdigit, ofParts, if_neg (Numeral.text_ne_nil n),
      below?_text hword]
    dsimp only
    rw [if_neg hmonths, hscale]
    exact if_pos h

theorem inRange_of_parse {raw : String} {i : Interval} (h : parse raw = .ok i) : i.InRange := by
  unfold parse ofParts at h
  dsimp only at h
  split at h
  case isTrue => exact nomatch h
  case isFalse =>
    split at h
    case h_1 => exact nomatch h
    case h_2 =>
      split_ifs at h with hunit hmany hzero
      · cases h
        exact ⟨by omega, by omega⟩
      · split at h
        case h_1 => exact nomatch h
        case h_2 =>
          split_ifs at h with hword
          cases h
          exact hword

theorem ofJson_toJson {i : Interval} (h : i.InRange) : ofJson i.toJson = .ok i := by
  rw [toJson, ofJson, parse_text h]

theorem inRange_of_ofJson {j : Json} {i : Interval} (h : ofJson j = .ok i) : i.InRange := by
  unfold ofJson at h
  split at h
  case h_1 s =>
    cases hs : parse s with
    | error e =>
      rw [hs] at h
      exact nomatch h
    | ok k =>
      rw [hs] at h
      cases h
      exact inRange_of_parse hs
  case h_2 =>
    obtain ⟨n, hn, rfl⟩ := map_eq_ok.1 h
    exact Json.lt_of_nat?_eq_some (Json.shaped_eq_ok.1 hn)

theorem lossless : Json.Lossless ofJson toJson := fun _ _ h => ofJson_toJson (inRange_of_ofJson h)

end Interval

/-! ## records -/

theorem WeekdaySpec.lossless : Json.Lossless ofJson toJson := by
  intro j w h
  unfold ofJson at h
  split at h
  case h_1 =>
    cases h
    rfl
  case h_2 =>
    obtain ⟨n, hn, rfl⟩ := map_eq_ok.1 h
    show (Json.shaped (Json.nat? UInt32.size) (.ofNat n)).map WeekdaySpec.number = _
    rw [Json.lossless_nat _ j n hn]
    rfl

theorem WeekdaySpec.toJson_ne_null (w : WeekdaySpec) : w.toJson ≠ .null := by
  cases w <;> exact nofun

def ScheduleConfig.toFields (c : ScheduleConfig) : List (String × Json) :=
  Json.fieldOf "interval" Interval.toJson c.interval
    ++ Json.fieldOf "day" Json.ofNat c.day
    ++ Json.fieldOf "wday" WeekdaySpec.toJson c.wday
    ++ Json.fieldOf "time" Json.str c.time
    ++ [("run_on_start", .bool c.runOnStart)]
    ++ Json.fieldOf "timezone" Json.str c.timezone

theorem ScheduleConfig.toJson_eq (c : ScheduleConfig) : c.toJson = .obj c.toFields := rfl

theorem ScheduleConfig.lossless : Json.Lossless ofJson toJson := by
  intro j c h
  obtain ⟨fields, -, h⟩ := bind_eq_ok.1 h
  obtain ⟨day, hday, h⟩ := bind_eq_ok.1 h
  obtain ⟨interval, hinterval, h⟩ := bind_eq_ok.1 h
  obtain ⟨runOnStart, hrun, h⟩ := bind_eq_ok.1 h
  obtain ⟨time, htime, h⟩ := bind_eq_ok.1 h
  obtain ⟨timezone, hzone, h⟩ := bind_eq_ok.1 h
  obtain ⟨wday, hwday, h⟩ := bind_eq_ok.1 h
  cases h
  let out : ScheduleConfig := { interval, day, wday, time, runOnStart, timezone }
  have hlookup {α : Type} {key : String} {encode : α → Json} {x : Option α}
      (h : Json.lookup? key out.toFields = x.map encode) :
      (Json.lookup? key out.toFields).getD .null = Json.ofOption encode x := by
    rw [h, Json.getD_map_null]
  have hday' := (Json.lossless_nat UInt32.size).optional nofun hday
    (hlookup (by simp [out, toFields]))
  have hinterval' := Interval.lossless.optional nofun hinterval
    (hlookup (by simp [out, toFields]))
  have hrun' := Json.lossless_bool.orDefault rfl hrun
    (show Json.lookup? "run_on_start" out.toFields = some (.bool runOnStart) by
      simp [out, toFields])
  have htime' := Json.lossless_str.optional nofun htime
    (hlookup (by simp [out, toFields]))
  have hzone' := Json.lossless_str.optional nofun hzone
    (hlookup (by simp [out, toFields]))
  have hwday' := WeekdaySpec.lossless.optional WeekdaySpec.toJson_ne_null hwday
    (hlookup (by simp [out, toFields]))
  rw [toJson_eq]
  exact bind_eq_ok.2 ⟨out.toFields, rfl, bind_eq_ok.2 ⟨day, hday', bind_eq_ok.2 ⟨interval, hinterval',
    bind_eq_ok.2 ⟨runOnStart, hrun', bind_eq_ok.2 ⟨time, htime', bind_eq_ok.2 ⟨timezone, hzone',
      bind_eq_ok.2 ⟨wday, hwday', rfl⟩⟩⟩⟩⟩⟩⟩

theorem AgentSettings.lossless : Json.Lossless ofJson toJson := by
  intro j a h
  obtain ⟨fields, -, h⟩ := bind_eq_ok.1 h
  obtain ⟨jsonLogs, hlogs, h⟩ := bind_eq_ok.1 h
  obtain ⟨logLevel, hlevel, h⟩ := bind_eq_ok.1 h
  obtain ⟨metricsPort, hport, h⟩ := bind_eq_ok.1 h
  obtain ⟨reportCapacity, hcapacity, h⟩ := bind_eq_ok.1 h
  obtain ⟨stateDir, hdir, h⟩ := bind_eq_ok.1 h
  obtain ⟨timezone, hzone, h⟩ := bind_eq_ok.1 h
  obtain ⟨wakeResolutionMs, hwake, h⟩ := bind_eq_ok.1 h
  cases h
  have hword := Json.lossless_nat wordBound
  have hdefault {n : Nat} (h : n < wordBound) :
      Json.shaped (Json.nat? wordBound) (.ofNat n) = .ok n := Json.shaped_eq_ok.2 (Json.nat?_ofNat h)
  exact bind_eq_ok.2 ⟨_, rfl,
    bind_eq_ok.2 ⟨jsonLogs, Json.lossless_bool.orDefault rfl hlogs rfl,
    bind_eq_ok.2 ⟨logLevel, Json.lossless_str.orDefault rfl hlevel rfl,
    bind_eq_ok.2 ⟨metricsPort, (Json.lossless_nat UInt16.size).optional nofun hport rfl,
    bind_eq_ok.2 ⟨reportCapacity, hword.orDefault (hdefault (by decide)) hcapacity rfl,
    bind_eq_ok.2 ⟨stateDir, Json.lossless_str.optional nofun hdir rfl,
    bind_eq_ok.2 ⟨timezone, Json.lossless_str.orDefault rfl hzone rfl,
    bind_eq_ok.2 ⟨wakeResolutionMs, hword.orDefault (hdefault (by decide)) hwake rfl,
      rfl⟩⟩⟩⟩⟩⟩⟩⟩

def ModuleSettings.toFields (m : ModuleSettings) : List (String × Json) :=
  [("name", .str m.name), ("enabled", .bool m.enabled)] ++ m.kind.toFields
    ++ [("default_interval", m.defaultInterval.toJson), ("schedule", m.schedule.toJson)]

theorem ModuleSettings.toJson_eq (m : ModuleSettings) : m.toJson = .obj m.toFields := rfl

theorem ModuleKind.ofFields_toFields {fields : List (String × Json)} (m : ModuleSettings)
    (h : ofFields fields = .ok m.kind) : ofFields m.toFields = .ok m.kind := by
  obtain ⟨name, enabled, kind, defaultInterval, schedule⟩ := m
  obtain ⟨given, -, h⟩ := bind_eq_ok.1 h
  split at h
  case isTrue =>
    obtain ⟨args, hargs, h⟩ := bind_eq_ok.1 h
    obtain ⟨program, hprogram, h⟩ := bind_eq_ok.1 h
    obtain ⟨timeout, htimeout, h⟩ := bind_eq_ok.1 h
    cases h
    have hstandard : Json.shaped (Json.nat? wordBound) (.ofNat standardTimeout)
        = .ok standardTimeout := Json.shaped_eq_ok.2 (Json.nat?_ofNat (by decide))
    exact bind_eq_ok.2 ⟨.str "command", rfl,
      bind_eq_ok.2 ⟨args, Json.lossless_str.list.orDefault rfl hargs rfl,
      bind_eq_ok.2 ⟨program, Json.lossless_str.required hprogram rfl,
      bind_eq_ok.2 ⟨timeout, (Json.lossless_nat wordBound).orDefault hstandard htimeout rfl, rfl⟩⟩⟩⟩
  case isFalse =>
    split at h
    case isFalse => exact nomatch h
    case isTrue =>
      cases h
      rfl

theorem ModuleSettings.lossless : Json.Lossless ofJson toJson := by
  intro j m h
  obtain ⟨fields, -, h⟩ := bind_eq_ok.1 h
  obtain ⟨defaultInterval, hinterval, h⟩ := bind_eq_ok.1 h
  obtain ⟨enabled, henabled, h⟩ := bind_eq_ok.1 h
  obtain ⟨name?, hname, h⟩ := bind_eq_ok.1 h
  obtain ⟨schedule, hschedule, h⟩ := bind_eq_ok.1 h
  obtain ⟨kind, hkind, h⟩ := bind_eq_ok.1 h
  cases name? with
  | none => exact nomatch h
  | some name =>
    cases h
    let out : ModuleSettings := { name, enabled, kind, defaultInterval, schedule }
    have hday : Interval.ofJson (Interval.seconds Interval.day).toJson
        = .ok (.seconds Interval.day) :=
      Interval.ofJson_toJson (show Interval.day < Interval.secondsBound by decide)
    have hinterval' := Interval.lossless.orDefault hday hinterval
      (show Json.lookup? "default_interval" out.toFields = some defaultInterval.toJson by
        simp [out, toFields, Json.lookup?_nil])
    have henabled' := Json.lossless_bool.orDefault rfl henabled
      (show Json.lookup? "enabled" out.toFields = some (.bool enabled) by
        cases kind <;> simp [out, toFields, ModuleKind.toFields, Json.lookup?_nil])
    have hname' := Json.lossless_str.present hname
      (show Json.lookup? "name" out.toFields = some (.str name) by
        cases kind <;> simp [out, toFields, ModuleKind.toFields, Json.lookup?_nil])
    have hschedule' := ScheduleConfig.lossless.orDefault rfl hschedule
      (show Json.lookup? "schedule" out.toFields = some schedule.toJson by
        simp [out, toFields, Json.lookup?_nil])
    have hkind' := ModuleKind.ofFields_toFields out hkind
    rw [toJson_eq]
    exact bind_eq_ok.2 ⟨out.toFields, rfl, bind_eq_ok.2 ⟨defaultInterval, hinterval',
      bind_eq_ok.2 ⟨enabled, henabled', bind_eq_ok.2 ⟨some name, hname',
        bind_eq_ok.2 ⟨schedule, hschedule', bind_eq_ok.2 ⟨kind, hkind', rfl⟩⟩⟩⟩⟩⟩

theorem Settings.lossless : Json.Lossless ofJson toJson := by
  intro j s h
  obtain ⟨fields, -, h⟩ := bind_eq_ok.1 h
  obtain ⟨agent, hagent, h⟩ := bind_eq_ok.1 h
  obtain ⟨modules, hmodules, h⟩ := bind_eq_ok.1 h
  cases h
  have hstandard : AgentSettings.ofJson ({} : AgentSettings).toJson = .ok {} :=
    AgentSettings.lossless (.obj []) {} rfl
  exact bind_eq_ok.2 ⟨_, rfl,
    bind_eq_ok.2 ⟨agent, AgentSettings.lossless.orDefault hstandard hagent rfl,
    bind_eq_ok.2 ⟨modules, ModuleSettings.lossless.list.orDefault rfl hmodules rfl, rfl⟩⟩⟩

/-! ## as values and as texts -/

/-- a value comes back from what it is encoded to, and from the text of that -/
def Json.Survives {α : Type} (decode : Json → Except Json.Fault α) (encode : α → Json) (a : α) :
    Prop :=
  decode (encode a) = .ok a ∧ (Json.parse? (encode a).text).map decode = some (.ok a)

theorem Json.Lossless.survives {α : Type} {decode : Json → Except Json.Fault α} {encode : α → Json}
    (h : Json.Lossless decode encode) {j : Json} {a : α} (ha : decode j = .ok a) :
    Json.Survives decode encode a := by
  have hread := h j a ha
  refine ⟨hread, ?_⟩
  rw [Json.parse?_text, Option.map_some, hread]

/-- **settings survive their JSON form**: whatever a value is decoded to, all settings, one module or
one schedule, comes back from what that is encoded to, and so does every interval that can be named -/
theorem settings_survive_json (j : Json) :
    (∀ s, Settings.ofJson j = .ok s → Json.Survives Settings.ofJson Settings.toJson s) ∧
    (∀ m, ModuleSettings.ofJson j = .ok m →
      Json.Survives ModuleSettings.ofJson ModuleSettings.toJson m) ∧
    (∀ c, ScheduleConfig.ofJson j = .ok c →
      Json.Survives ScheduleConfig.ofJson ScheduleConfig.toJson c) ∧
    ∀ i : Interval, i.InRange → Json.Survives Interval.ofJson Interval.toJson i :=
  ⟨fun _ hs => Settings.lossless.survives hs, fun _ hm => ModuleSettings.lossless.survives hm,
    fun _ hc => ScheduleConfig.lossless.survives hc,
    fun _ hi => Interval.lossless.survives (Interval.ofJson_toJson hi)⟩

/-- a module whose kind is told by its place and whose interval is a number, and a schedule whose
weekday is a number: both are encoded to something else -/
theorem settings_survive_json_numbers :
    ∃ j s m c, Settings.ofJson j = .ok s ∧ s.modules = [m] ∧ m.schedule = c ∧
      m.kind = .command "df" [] ModuleKind.standardTimeout ∧ m.defaultInterval.text = "1w" ∧
      c.wday = some (.number 1) ∧
      Json.Survives Settings.ofJson Settings.toJson s ∧
      Json.Survives ModuleSettings.ofJson ModuleSettings.toJson m ∧
      Json.Survives ScheduleConfig.ofJson ScheduleConfig.toJson c ∧
      Json.Survives Interval.ofJson Interval.toJson m.defaultInterval := by
  let schedule : Json := .obj [("wday", .int 1), ("time", .str "05:30"), ("day", .null)]
  let disk : Json := .obj [("name", .str "disk"), ("kind", .int 0), ("command", .str "df"),
    ("default_interval", .int 604800), ("schedule", schedule)]
  let settings : Json := .obj [("modules", .arr [disk])]
  let c : ScheduleConfig := { wday := some (.number 1), time := some "05:30" }
  let m : ModuleSettings :=
    { name := "disk", kind := .command "df" [] ModuleKind.standardTimeout,
      defaultInterval := .seconds 604800, schedule := c }
  have hs : Settings.ofJson settings = .ok { modules := [m] } := rfl
  have hm : ModuleSettings.ofJson disk = .ok m := rfl
  have hc : ScheduleConfig.ofJson schedule = .ok c := rfl
  have hi : Interval.InRange (.seconds 604800) := show 604800 < Interval.secondsBound by decide
  exact ⟨settings, { modules := [m] }, m, c, hs, rfl, rfl, rfl, by decide, rfl,
    (settings_survive_json settings).1 _ hs, (settings_survive_json disk).2.1 _ hm,
    (settings_survive_json schedule).2.2.1 _ hc, (settings_survive_json .null).2.2.2 _ hi⟩

end Rota
