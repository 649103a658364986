import Rota.Proofs.Agent.Assembly
import Rota.Proofs.Schedule.Acceptance

/-!
# What is left to reject in valid settings

Settings are checked as a whole before an agent is put together, schedules left aside.  So an entry of
valid settings should be rejected for its schedule only.  One fault slips through: settings may have a
default interval above the longest one, with which no schedule is accepted.

* `of_modulesFault?`               entries without a fault have different names and default intervals
                                   in seconds;
* `Assembly.exists_refused`        a rejected entry of valid settings has a schedule that is refused
                                   with its own default interval;
* `Assembly.RejectsSchedulesOnly`  a rejected entry has a schedule that is refused also with a default
                                   interval of a day;
* `rejectsSchedulesOnly_iff`       **that is so exactly when no enabled entry has a default interval
                                   above the longest**.
-/

namespace Rota

/-! ## settings without a fault -/

theorem ModuleSettings.of_fault? {earlier : List String} {m : ModuleSettings}
    (h : m.fault? earlier = none) :
    m.name ∉ earlier ∧ ∃ n, m.defaultInterval = .seconds n ∧ 1 ≤ n := by
  unfold ModuleSettings.fault? at h
  split at h
  · exact nomatch h
  · split at h
    · exact nomatch h
    · next hname =>
      refine ⟨hname, ?_⟩
      split at h
      · exact nomatch h
      · next n hn =>
        split at h
        · exact nomatch h
        · next hpos => exact ⟨n, hn, Nat.pos_of_ne_zero hpos⟩

theorem of_modulesFault? {earlier : List String} {ms : List ModuleSettings}
    (h : modulesFault? earlier ms = none) :
    (∀ m ∈ ms, m.name ∉ earlier ∧ ∃ n, m.defaultInterval = .seconds n ∧ 1 ≤ n) ∧
      (ms.map (·.name)).Nodup := by
  induction ms generalizing earlier with
  | nil => exact ⟨fun _ hm => (nomatch hm), List.nodup_nil⟩
  | cons m ms ih =>
    unfold modulesFault? at h
    split at h
    · exact nomatch h
    · next hm =>
      obtain ⟨hall, hdistinct⟩ := ih h
      constructor
      · intro m' hm'
        rcases List.mem_cons.1 hm' with rfl | hm'
        · exact ModuleSettings.of_fault? hm
        · obtain ⟨hname, hdefault⟩ := hall m' hm'
          exact ⟨fun he => hname (List.mem_cons_of_mem _ he), hdefault⟩
      · refine List.nodup_cons.2 ⟨fun hmem => ?_, hdistinct⟩
        obtain ⟨m', hm', hname⟩ := List.mem_map.1 hmem
        exact (hall m' hm').1 (hname ▸ List.mem_cons_self)

theorem Settings.of_fault? {s : Settings} (h : s.fault? = none) :
    (∀ m ∈ s.modules, ∃ n, m.defaultInterval = .seconds n ∧ 1 ≤ n) ∧
      (s.modules.map (·.name)).Nodup := by
  unfold Settings.fault? at h
  split at h
  · exact nomatch h
  · split at h
    · exact nomatch h
    · obtain ⟨hall, hdistinct⟩ := of_modulesFault? h
      exact ⟨fun m hm => (hall m hm).2, hdistinct⟩

/-! ## what is rejected in them -/

section
variable {α β : Type} {R : α → β → Prop} {xs : List α} {ys : List β}

theorem exists_beside_right (h : List.Forall₂ R xs ys) {y : β} (hy : y ∈ ys) : ∃ x ∈ xs, R x y := by
  induction h with
  | nil => exact nomatch hy
  | cons hxy _ ih =>
    rcases List.mem_cons.1 hy with rfl | hy
    · exact ⟨_, List.mem_cons_self, hxy⟩
    · obtain ⟨x, hx, hxy⟩ := ih hy
      exact ⟨x, List.mem_cons_of_mem _ hx, hxy⟩

theorem exists_beside_left (h : List.Forall₂ R xs ys) {x : α} (hx : x ∈ xs) : ∃ y ∈ ys, R x y :=
  exists_beside_right (R := flip R) h.flip hx

end

namespace Assembly

theorem not_isTaken [ZoneDatabase] {ms : List ModuleSettings}
    (hdistinct : (ms.map (·.name)).Nodup) {kept : Nat → Bool} {i : Nat} {m : ModuleSettings} (hm : ms[i]? = some m) :
    ¬ IsTaken ms kept i m.name := by
  rintro ⟨j, hj, -, m', hm', hname⟩
  obtain ⟨hi, rfl⟩ := List.getElem?_eq_some_iff.1 hm
  obtain ⟨hj', rfl⟩ := List.getElem?_eq_some_iff.1 hm'
  have hleft : j < (ms.map (·.name)).length := by rwa [List.length_map]
  have hright : i < (ms.map (·.name)).length := by rwa [List.length_map]
  have hsame : (ms.map (·.name))[j] = (ms.map (·.name))[i] := by
    rw [List.getElem_map, List.getElem_map, hname]
  exact absurd (hdistinct.getElem_inj_iff.1 hsame) (Nat.ne_of_lt hj)

section
variable [ZoneDatabase] {s : Settings} {a : Assembly}

theorem sorts_of_ofSettings (ha : ofSettings s = .ok a) :
    ∃ kept, a.Sorts a.zone s.modules kept := by
  obtain ⟨zone, -, -, rfl⟩ := of_ofSettings ha
  have hsame : (upTo zone s.modules s.modules.length).zone = zone := zone_addAll _ _
  rw [hsame]
  exact ⟨_, sorts_upTo zone s.modules⟩

theorem exists_rejected {rs : List Rejected} (h : (ofSettings s).map (·.rejected) = .ok rs) :
    ∃ a, ofSettings s = .ok a ∧ a.rejected = rs := by
  cases ha : ofSettings s with
  | error e =>
    rw [ha] at h
    cases h
  | ok a =>
    rw [ha] at h
    exact ⟨a, rfl, Except.ok.inj h⟩

theorem exists_refused (hvalid : s.fault? = none) (ha : ofSettings s = .ok a) {r : Rejected}
    (hr : r ∈ a.rejected) :
    ∃ m ∈ s.modules, m.enabled = true ∧ m.name = r.name ∧
      ∃ n, m.defaultInterval = .seconds n ∧ 1 ≤ n ∧
        m.schedule.normalize ⟨n, a.zone⟩ = .error r.error := by
  obtain ⟨name, error⟩ := r
  obtain ⟨hdefaults, hdistinct⟩ := Settings.of_fault? hvalid
  obtain ⟨kept, hsorts⟩ := sorts_of_ofSettings ha
  obtain ⟨⟨m, i⟩, he, hname, hfault⟩ := exists_beside_right hsorts.rejected hr
  obtain ⟨hm, hrejected⟩ := mem_entriesAt.1 he
  have hmem := List.mem_of_getElem? hm
  obtain ⟨n, hn, hpos⟩ := hdefaults m hmem
  refine ⟨m, hmem, (Bool.and_eq_true_iff.1 hrejected).1, hname.symm, n, hn, hpos, ?_⟩
  dsimp only at hfault ⊢
  cases hfault with
  | inMonths h => exact nomatch hn.symm.trans h
  | taken h htaken => exact absurd htaken (not_isTaken hdistinct hm)
  | unusable h _ hrefused =>
    rw [Interval.seconds.inj (hn.symm.trans h)]
    exact hrefused

/-- an enabled entry with a default interval above the longest is rejected for that -/
theorem defaultOutside_mem_rejected (hvalid : s.fault? = none) (ha : ofSettings s = .ok a)
    {m : ModuleSettings} (hm : m ∈ s.modules) (henabled : m.enabled = true) {n : Nat}
    (hn : m.defaultInterval = .seconds n) (hlong : Interval.longest < n) :
    ⟨m.name, .invalidValue (.defaultOutside Interval.longest)⟩ ∈ a.rejected := by
  obtain ⟨-, hdistinct⟩ := Settings.of_fault? hvalid
  obtain ⟨kept, hsorts⟩ := sorts_of_ofSettings ha
  obtain ⟨i, hi⟩ := List.getElem?_of_mem hm
  have hrefused : m.schedule.normalize ⟨n, a.zone⟩ =
      .error (.invalidValue (.defaultOutside Interval.longest)) := if_pos (.inr hlong)
  have hnot : kept i = false := by
    refine Bool.eq_false_iff.2 fun hkept => ?_
    obtain ⟨-, ⟨schedule, k, adjustments, hk, hok⟩, -⟩ := (hsorts.places i m hi).1 hkept
    rw [← Interval.seconds.inj (hn.symm.trans hk), hrefused] at hok
    exact nomatch hok
  obtain ⟨⟨name, error⟩, hr, hname, hfault⟩ := exists_beside_left hsorts.rejected
    (mem_entriesAt.2 ⟨hi, Bool.and_eq_true_iff.2 ⟨henabled, by rw [hnot]; rfl⟩⟩)
  dsimp only at hname hfault
  cases hfault with
  | inMonths h => exact nomatch hn.symm.trans h
  | taken h htaken => exact absurd htaken (not_isTaken hdistinct hi)
  | unusable h _ herror =>
    rw [← Interval.seconds.inj (hn.symm.trans h), hrefused] at herror
    rw [← Except.error.inj herror] at hr
    exact hname ▸ hr

/-- every rejected entry has a schedule that is refused also with a default interval of a day, and
none is rejected for its name or its default interval -/
def RejectsSchedulesOnly (s : Settings) (a : Assembly) : Prop :=
  ∀ r ∈ a.rejected,
    (∃ m ∈ s.modules, m.enabled = true ∧ m.name = r.name ∧
      m.schedule.normalize ⟨Interval.day, a.zone⟩ = .error r.error) ∧
    ¬ r.error.Names "name" ∧ ¬ r.error.Names "default_interval"

end

end Assembly

/-- Entries of valid settings are rejected for their schedules only, exactly when no enabled one has a
default interval above the longest. -/
theorem rejectsSchedulesOnly_iff [ZoneDatabase] {s : Settings} {a : Assembly}
    (hvalid : s.fault? = none) (ha : Assembly.ofSettings s = .ok a) :
    Assembly.RejectsSchedulesOnly s a ↔
      ∀ m ∈ s.modules, m.enabled = true → ∀ n, m.defaultInterval = .seconds n →
        n ≤ Interval.longest := by
  constructor
  · intro h m hm henabled n hn
    by_contra hlong
    have hr := Assembly.defaultOutside_mem_rejected hvalid ha hm henabled hn (Nat.lt_of_not_le hlong)
    exact (h _ hr).2.2 rfl
  · intro h r hr
    obtain ⟨m, hm, henabled, hname, n, hn, hpos, hrefused⟩ := Assembly.exists_refused hvalid ha hr
    have hdefault : ScheduleConfig.ValidDefault ⟨n, a.zone⟩ := ⟨hpos, h m hm henabled n hn⟩
    refine ⟨⟨m, hm, henabled, hname, ?_⟩, ?_⟩
    · exact ScheduleConfig.normalize_error_congr hdefault
        ⟨show 1 ≤ Interval.day by decide, show Interval.day ≤ Interval.longest by decide⟩ hrefused
    · rcases ScheduleConfig.normalize_eq_error hdefault hrefused with
        ⟨field, hfield, he⟩ | ⟨weekday, day, he⟩ | ⟨policy, he⟩
      · refine ⟨fun ho => ?_, fun ho => ?_⟩
        · exact absurd (he.eq ho ▸ hfield) (by decide)
        · exact absurd (he.eq ho ▸ hfield) (by decide)
      · exact he ▸ ⟨fun ho => ho, fun ho => ho⟩
      · exact he ▸ ⟨fun ho => ho, fun ho => ho⟩

open ZoneTable

/-- an entry whose only fault is a weekday without a time is rejected for that -/
theorem rejectsSchedulesOnly_iff_monday :
    let s : Settings :=
      { modules := [{ name := "beat", kind := .heartbeat, schedule := { wday := some (.number 1) } }] }
    s.fault? = none ∧ ∃ a, Assembly.ofSettings s = .ok a ∧
      a.rejected = [⟨"beat", .missingTime .weekly⟩] ∧ Assembly.RejectsSchedulesOnly s a := by
  intro s
  have hvalid : s.fault? = none := by decide +kernel
  obtain ⟨a, ha, hrejected⟩ := @Assembly.exists_rejected _ s
    [⟨"beat", .missingTime .weekly⟩] (by decide +kernel)
  refine ⟨hvalid, a, ha, hrejected, (rejectsSchedulesOnly_iff hvalid ha).2 fun m hm _ n hn => ?_⟩
  rw [List.mem_singleton.1 hm] at hn
  rw [← Interval.seconds.inj hn]
  decide

/-- a heartbeat of every hour in valid settings is rejected, because its default interval, which no one
needs, is above the longest -/
theorem not_rejectsSchedulesOnly :
    let s : Settings :=
      { modules := [{ name := "beat", kind := .heartbeat, defaultInterval := .seconds 3153600001,
                      schedule := { interval := some (.seconds 3600) } }] }
    s.fault? = none ∧ ∃ a, Assembly.ofSettings s = .ok a ∧
      a.rejected = [⟨"beat", .invalidValue (.defaultOutside 3153600000)⟩] ∧
      ¬ Assembly.RejectsSchedulesOnly s a := by
  intro s
  have hvalid : s.fault? = none := by decide +kernel
  obtain ⟨a, ha, hrejected⟩ := @Assembly.exists_rejected _ s
    [⟨"beat", .invalidValue (.defaultOutside 3153600000)⟩] (by decide +kernel)
  refine ⟨hvalid, a, ha, hrejected, fun h => ?_⟩
  have hmem : ⟨"beat", .invalidValue (.defaultOutside 3153600000)⟩ ∈ a.rejected := by
    rw [hrejected]
    exact List.mem_singleton_self _
  exact (h _ hmem).2.2 rfl

end Rota
