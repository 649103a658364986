import Mathlib.Data.List.Forall2
import Mathlib.Data.List.Nodup
import Rota.Agent.Assembly
import Rota.Proofs.Status.Registry
import Rota.Zone.Table

/-!
# Which modules of the settings are accepted

An entry of the settings is accepted if it is enabled, has a schedule, and its name is free: no earlier
accepted entry has it.  The names that are taken depend on what became of the earlier entries, so the
accepted entries are told by their places.

* `ModuleSettings.HasSchedule`   the schedule of an entry, in an agent with some zone;
* `Assembly.Admits`              a set of places holds the accepted entries;
* `Assembly.entriesAt`           the entries at some places, in order;
* `Assembly.IsAcceptedAs`, `Assembly.IsFaultAt`   what an accepted entry becomes, and the error of
  another one;
* `Assembly.accept`, `Assembly.refuse`   what one entry adds to an assembly;
* `Assembly.of_ofSettings`       what an agent needs: a zone that is known, and a channel;
* `ofSettings_sorts_iff`         **the settings are sorted into accepted and rejected entries**, and
  entries that are not accepted have no effect on the others, as far as there is a channel.
-/

namespace Rota

section
variable [ZoneDatabase]

def ModuleSettings.HasSchedule (m : ModuleSettings) (zone : Zone) (schedule : Schedule) : Prop :=
  ∃ seconds adjustments, m.defaultInterval = .seconds seconds ∧
    m.schedule.normalize ⟨seconds, zone⟩ = .ok ⟨schedule, adjustments⟩

namespace Assembly

def IsTaken (ms : List ModuleSettings) (kept : Nat → Bool) (i : Nat) (name : String) : Prop :=
  ∃ j < i, kept j = true ∧ ∃ m, ms[j]? = some m ∧ m.name = name

/-- `kept` are the places of the accepted entries -/
def Admits (zone : Zone) (ms : List ModuleSettings) (kept : Nat → Bool) : Prop :=
  ∀ i m, ms[i]? = some m →
    (kept i = true ↔
      m.enabled = true ∧ (∃ schedule, m.HasSchedule zone schedule) ∧ ¬ IsTaken ms kept i m.name)

def entriesAt (p : ModuleSettings → Nat → Bool) (ms : List ModuleSettings) :
    List (ModuleSettings × Nat) :=
  ms.zipIdx.filter fun e => p e.1 e.2

/-- what an accepted entry becomes -/
def IsAcceptedAs (zone : Zone) (e : ModuleSettings × Nat) (x : Accepted) : Prop :=
  x.name = e.1.name ∧ x.behaviour = e.1.behaviour ∧ e.1.HasSchedule zone x.schedule

/-- the error of an enabled entry that is not accepted -/
inductive IsFaultAt (zone : Zone) (ms : List ModuleSettings) (kept : Nat → Bool) (m : ModuleSettings)
    (i : Nat) : ScheduleError → Prop
  | inMonths {months} (h : m.defaultInterval = .months months) :
      IsFaultAt zone ms kept m i (.invalidValue .defaultInMonths)
  | taken {seconds} (h : m.defaultInterval = .seconds seconds) (htaken : IsTaken ms kept i m.name) :
      IsFaultAt zone ms kept m i (.invalidValue (.alreadyScheduled m.name))
  | unusable {seconds e} (h : m.defaultInterval = .seconds seconds)
      (htaken : ¬ IsTaken ms kept i m.name) (he : m.schedule.normalize ⟨seconds, zone⟩ = .error e) :
      IsFaultAt zone ms kept m i e

def IsRejectedAs (zone : Zone) (ms : List ModuleSettings) (kept : Nat → Bool)
    (e : ModuleSettings × Nat) (r : Rejected) : Prop :=
  r.name = e.1.name ∧ IsFaultAt zone ms kept e.1 e.2 r.error

/-! ## one more entry -/

def accept (zone : Zone) (taken : List String) (m : ModuleSettings) : Option Accepted :=
  match m.enabled, m.defaultInterval with
  | true, .seconds seconds =>
    if m.name ∈ taken then none
    else
      match m.schedule.normalize ⟨seconds, zone⟩ with
      | .ok n => some ⟨m.name, n.schedule, m.behaviour⟩
      | .error _ => none
  | _, _ => none

def refuse (zone : Zone) (taken : List String) (m : ModuleSettings) : Option Rejected :=
  match m.enabled, m.defaultInterval with
  | false, _ => none
  | true, .months _ => some ⟨m.name, .invalidValue .defaultInMonths⟩
  | true, .seconds seconds =>
    if m.name ∈ taken then some ⟨m.name, .invalidValue (.alreadyScheduled m.name)⟩
    else
      match m.schedule.normalize ⟨seconds, zone⟩ with
      | .ok _ => none
      | .error e => some ⟨m.name, e⟩

section
variable (a : Assembly) (m : ModuleSettings)

theorem addConfigured_eq :
    (a.addConfigured m).1.zone = a.zone ∧
      (a.addConfigured m).1.accepted = a.accepted ++ (accept a.zone a.names m).toList ∧
      (a.addConfigured m).1.rejected = a.rejected ++ (refuse a.zone a.names m).toList := by
  unfold addConfigured accept refuse
  cases henabled : m.enabled with
  | false => simp
  | true =>
    rw [if_pos rfl]
    cases m.defaultInterval with
    | months n => simp [reject]
    | seconds n =>
      simp only [add, scheduleFor]
      by_cases htaken : m.name ∈ a.names
      · simp [htaken, reject]
      · simp only [if_neg htaken]
        cases m.schedule.normalize ⟨n, a.zone⟩ with
        | ok n => simp
        | error e => simp [reject]

theorem zone_addAll (ms : List ModuleSettings) : (a.addAll ms).zone = a.zone := by
  induction ms generalizing a with
  | nil => rfl
  | cons m ms ih => exact (ih _).trans (addConfigured_eq a m).1

theorem addAll_concat (ms : List ModuleSettings) :
    a.addAll (ms ++ [m]) = ((a.addAll ms).addConfigured m).1 := by
  rw [addAll, List.foldl_append]
  rfl

end

section
variable {zone : Zone} {taken : List String} {m : ModuleSettings}

theorem accept_eq_some_iff {x : Accepted} :
    accept zone taken m = some x ↔
      m.enabled = true ∧ m.name ∉ taken ∧ x.name = m.name ∧ x.behaviour = m.behaviour ∧
        m.HasSchedule zone x.schedule := by
  obtain ⟨name, schedule, behaviour⟩ := x
  unfold accept ModuleSettings.HasSchedule
  cases m.enabled with
  | false => simp
  | true =>
    cases m.defaultInterval with
    | months n => simp
    | seconds n =>
      by_cases htaken : m.name ∈ taken
      · simp [htaken]
      · dsimp only
        rw [if_neg htaken]
        cases hn : m.schedule.normalize ⟨n, zone⟩ with
        | error e =>
          refine ⟨nofun, ?_⟩
          rintro ⟨-, -, -, -, _, _, hseconds, h⟩
          rw [← Interval.seconds.inj hseconds, hn] at h
          exact nomatch h
        | ok n' =>
          constructor
          · intro h
            obtain ⟨rfl, rfl, rfl⟩ := Accepted.mk.inj (Option.some.inj h)
            exact ⟨rfl, htaken, rfl, rfl, n, n'.adjustments, rfl, hn⟩
          · rintro ⟨-, -, hname, hbehaviour, _, adjustments, hseconds, h⟩
            rw [← Interval.seconds.inj hseconds, hn] at h
            dsimp only at hname hbehaviour ⊢
            rw [hname, hbehaviour, Except.ok.inj h]

theorem refuse_eq_some_iff {r : Rejected} :
    refuse zone taken m = some r ↔
      m.enabled = true ∧ r.name = m.name ∧
        ((∃ n, m.defaultInterval = .months n ∧ r.error = .invalidValue .defaultInMonths) ∨
          ∃ n, m.defaultInterval = .seconds n ∧
            (m.name ∈ taken ∧ r.error = .invalidValue (.alreadyScheduled m.name) ∨
              m.name ∉ taken ∧ m.schedule.normalize ⟨n, zone⟩ = .error r.error)) := by
  obtain ⟨name, error⟩ := r
  unfold refuse
  cases m.enabled with
  | false => simp
  | true =>
    cases m.defaultInterval with
    | months n => simp [eq_comm]
    | seconds n =>
      by_cases htaken : m.name ∈ taken
      · simp [htaken, eq_comm]
      · cases hn : m.schedule.normalize ⟨n, zone⟩ with
        | error e => simp [htaken, hn, eq_comm]
        | ok n' => simp [htaken, hn]

theorem refuse_isSome : (refuse zone taken m).isSome = (m.enabled && !(accept zone taken m).isSome) := by
  unfold refuse accept
  cases m.enabled with
  | false => rfl
  | true =>
    cases m.defaultInterval with
    | months n => rfl
    | seconds n =>
      by_cases htaken : m.name ∈ taken
      · simp [htaken]
      · simp only [if_neg htaken]
        cases m.schedule.normalize ⟨n, zone⟩ <;> rfl

end

/-! ## the places of the accepted entries -/

section
omit [ZoneDatabase]
variable {p : ModuleSettings → Nat → Bool} {ms : List ModuleSettings} {m : ModuleSettings} {k : Nat}

theorem mem_entriesAt {i : Nat} : (m, i) ∈ entriesAt p ms ↔ ms[i]? = some m ∧ p m i = true := by
  rw [entriesAt, List.mem_filter, List.mk_mem_zipIdx_iff_getElem?]

theorem getElem?_take_eq_some_iff {i : Nat} :
    (ms.take k)[i]? = some m ↔ i < k ∧ ms[i]? = some m := by
  rw [List.getElem?_take]
  split
  case isTrue h => exact (and_iff_right h).symm
  case isFalse h => exact ⟨nofun, fun hi => absurd hi.1 h⟩

theorem entriesAt_take_succ (hm : ms[k]? = some m) :
    entriesAt p (ms.take (k + 1)) = entriesAt p (ms.take k) ++ if p m k then [(m, k)] else [] := by
  obtain ⟨hk, -⟩ := List.getElem?_eq_some_iff.1 hm
  rw [List.take_add_one, hm, entriesAt, List.zipIdx_append, List.filter_append, List.length_take,
    Nat.min_eq_left hk.le, Nat.zero_add, Option.toList_some, List.zipIdx_singleton, List.filter_singleton,
    Bool.cond_eq_ite]
  rfl

end

section
variable (zone : Zone) (ms : List ModuleSettings)

/-- the assembly of the first `k` entries -/
def upTo (k : Nat) : Assembly := addAll { zone } (ms.take k)

def keptIn (i : Nat) : Bool := (ms[i]?.bind (accept zone (upTo zone ms i).names)).isSome

variable {zone ms}

theorem zone_upTo (k : Nat) : (upTo zone ms k).zone = zone := zone_addAll _ _

theorem upTo_succ {k : Nat} {m : ModuleSettings} (hm : ms[k]? = some m) :
    upTo zone ms (k + 1) = ((upTo zone ms k).addConfigured m).1 := by
  rw [upTo, List.take_add_one, hm, Option.toList_some, addAll_concat]
  rfl

theorem upTo_succ_of_none {k : Nat} (hm : ms[k]? = none) :
    upTo zone ms (k + 1) = upTo zone ms k := by
  rw [upTo, List.take_add_one, hm, Option.toList_none, List.append_nil]
  rfl

/-- what holds at the start and is kept by every entry holds of the first `k` entries -/
theorem upTo_induction {motive : List ModuleSettings → Assembly → Prop} (nil : motive [] { zone })
    (snoc : ∀ k m, ms[k]? = some m → motive (ms.take k) (upTo zone ms k) →
      motive (ms.take (k + 1)) (upTo zone ms (k + 1))) (k : Nat) :
    motive (ms.take k) (upTo zone ms k) := by
  induction k with
  | zero => exact nil
  | succ k ih =>
    cases hm : ms[k]? with
    | none =>
      rw [upTo_succ_of_none hm, List.take_add_one, hm, Option.toList_none, List.append_nil]
      exact ih
    | some m => exact snoc k m hm ih

theorem keptIn_eq {k : Nat} {m : ModuleSettings} (hm : ms[k]? = some m) :
    keptIn zone ms k = (accept zone (upTo zone ms k).names m).isSome := by
  rw [keptIn, hm]
  rfl

theorem accepted_upTo_succ {k : Nat} {m : ModuleSettings} (hm : ms[k]? = some m) :
    (upTo zone ms (k + 1)).accepted =
      (upTo zone ms k).accepted ++ (accept zone (upTo zone ms k).names m).toList := by
  rw [upTo_succ hm, (addConfigured_eq _ m).2.1, zone_upTo]

theorem accepted_upTo (k : Nat) :
    List.Forall₂ (IsAcceptedAs zone) (entriesAt (fun _ i => keptIn zone ms i) (ms.take k))
      (upTo zone ms k).accepted := by
  refine upTo_induction (motive := fun taken a => List.Forall₂ (IsAcceptedAs zone)
    (entriesAt (fun _ i => keptIn zone ms i) taken) a.accepted) .nil (fun k m hm ih => ?_) k
  rw [entriesAt_take_succ hm, accepted_upTo_succ hm, keptIn_eq hm]
  cases hx : accept zone (upTo zone ms k).names m with
  | none => simpa using ih
  | some x =>
    obtain ⟨-, -, hname, hbehaviour, hschedule⟩ := accept_eq_some_iff.1 hx
    exact List.rel_append ih (.cons ⟨hname, hbehaviour, hschedule⟩ .nil)

theorem mem_names_upTo {k : Nat} {name : String} :
    name ∈ (upTo zone ms k).names ↔ IsTaken ms (keptIn zone ms) k name := by
  have hnames : (entriesAt (fun _ i => keptIn zone ms i) (ms.take k)).map (·.1.name) =
      (upTo zone ms k).names := by
    rw [names, ← List.forall₂_eq_eq_eq, List.forall₂_map_left_iff, List.forall₂_map_right_iff]
    exact (accepted_upTo k).imp fun _ _ h => h.1.symm
  rw [← hnames, List.mem_map]
  constructor
  · rintro ⟨⟨m, j⟩, hj, rfl⟩
    obtain ⟨hm, hkept⟩ := mem_entriesAt.1 hj
    obtain ⟨hlt, hm⟩ := getElem?_take_eq_some_iff.1 hm
    exact ⟨j, hlt, hkept, m, hm, rfl⟩
  · rintro ⟨j, hlt, hkept, m, hm, rfl⟩
    exact ⟨(m, j), mem_entriesAt.2 ⟨getElem?_take_eq_some_iff.2 ⟨hlt, hm⟩, hkept⟩, rfl⟩

theorem keptIn_admits : Admits zone ms (keptIn zone ms) := by
  intro i m hm
  rw [keptIn_eq hm, ← mem_names_upTo, Option.isSome_iff_exists]
  constructor
  · rintro ⟨x, hx⟩
    obtain ⟨henabled, hfree, -, -, hschedule⟩ := accept_eq_some_iff.1 hx
    exact ⟨henabled, ⟨_, hschedule⟩, hfree⟩
  · rintro ⟨henabled, ⟨schedule, hschedule⟩, hfree⟩
    exact ⟨⟨m.name, schedule, m.behaviour⟩,
      accept_eq_some_iff.2 ⟨henabled, hfree, rfl, rfl, hschedule⟩⟩

theorem rejected_upTo (k : Nat) :
    List.Forall₂ (IsRejectedAs zone ms (keptIn zone ms))
      (entriesAt (fun m i => m.enabled && !keptIn zone ms i) (ms.take k))
      (upTo zone ms k).rejected := by
  refine upTo_induction (motive := fun taken a =>
    List.Forall₂ (IsRejectedAs zone ms (keptIn zone ms))
      (entriesAt (fun m i => m.enabled && !keptIn zone ms i) taken) a.rejected)
    .nil (fun k m hm ih => ?_) k
  rw [entriesAt_take_succ hm, upTo_succ hm, (addConfigured_eq _ m).2.2, zone_upTo, keptIn_eq hm,
    ← refuse_isSome]
  cases hr : refuse zone (upTo zone ms k).names m with
  | none => simpa using ih
  | some r =>
    refine List.rel_append ih (.cons ?_ .nil)
    obtain ⟨-, hname, ⟨n, hn, he⟩ | ⟨n, hn, ⟨htaken, he⟩ | ⟨hfree, he⟩⟩⟩ :=
      refuse_eq_some_iff.1 hr
    · exact ⟨hname, he ▸ .inMonths hn⟩
    · exact ⟨hname, he ▸ .taken hn (mem_names_upTo.1 htaken)⟩
    · exact ⟨hname, .unusable hn (fun h => hfree (mem_names_upTo.2 h)) he⟩

/-- without some of the entries that are not accepted, the others are accepted as before -/
theorem accepted_addAll_of_kept {p : ModuleSettings → Nat → Bool}
    (hp : ∀ i m, keptIn zone ms i = true → p m i = true) (k : Nat) :
    (addAll { zone } ((entriesAt p (ms.take k)).map (·.1))).accepted = (upTo zone ms k).accepted := by
  refine upTo_induction (motive := fun taken a =>
    (addAll { zone } ((entriesAt p taken).map (·.1))).accepted = a.accepted) rfl
    (fun k m hm ih => ?_) k
  have hsame : names (addAll { zone } ((entriesAt p (ms.take k)).map (·.1))) =
      (upTo zone ms k).names := congrArg (List.map Accepted.name) ih
  rw [entriesAt_take_succ hm, accepted_upTo_succ hm]
  cases hpm : p m k with
  | true =>
    rw [if_pos rfl, List.map_append, List.map_singleton, addAll_concat, (addConfigured_eq _ m).2.1,
      zone_addAll, hsame, ih]
  | false =>
    have hnot : keptIn zone ms k = false :=
      Bool.eq_false_iff.2 fun h => Bool.false_ne_true (hpm.symm.trans (hp k m h))
    rw [keptIn_eq hm, Option.isSome_eq_false_iff, Option.isNone_iff_eq_none] at hnot
    rw [if_neg Bool.false_ne_true, List.append_nil, hnot, Option.toList_none, List.append_nil, ih]

end

/-! ## the registry -/

section
variable (a : Assembly)

theorem registry_eq :
    a.registry = Registry.ofList {} (a.accepted.map fun x => (x.name, .fresh x.name x.schedule)) := by
  rw [Registry.ofList, List.foldl_map]
  rfl

theorem mem_names_registry {name : String} : name ∈ a.registry.names ↔ name ∈ a.names := by
  rw [registry_eq, Registry.mem_names_ofList, List.map_map]
  exact or_iff_left (List.not_mem_nil)

theorem ascending_registry : a.registry.names.Pairwise (· < ·) := by
  rw [registry_eq]
  exact Registry.ascending_ofList .nil

theorem get?_registry (hdistinct : a.names.Nodup) {x : Accepted} (hx : x ∈ a.accepted) :
    a.registry.get? x.name = some (.fresh x.name x.schedule) := by
  rw [registry_eq, Registry.get?, Registry.find?_ofList (by rwa [List.map_map])
    (List.mem_map.2 ⟨x, hx, rfl⟩)]
  rfl

end

theorem nodup_names_upTo {zone : Zone} {ms : List ModuleSettings} (k : Nat) :
    (upTo zone ms k).names.Nodup := by
  refine upTo_induction (motive := fun _ a => a.names.Nodup) .nil (fun k m hm ih => ?_) k
  rw [names, accepted_upTo_succ hm, List.map_append, ← names]
  cases hx : accept zone (upTo zone ms k).names m with
  | none => rwa [Option.toList_none, List.map_nil, List.append_nil]
  | some x =>
    obtain ⟨-, hfree, hname, -⟩ := accept_eq_some_iff.1 hx
    rw [← hname] at hfree
    exact List.nodup_append_comm.1 (List.nodup_cons.2 ⟨hfree, ih⟩)

/-- an assembly holds the entries of a list, sorted by some places, and its registry shows them -/
structure Sorts (zone : Zone) (ms : List ModuleSettings) (kept : Nat → Bool) (a : Assembly) : Prop where
  places : Admits zone ms kept
  accepted : List.Forall₂ (IsAcceptedAs zone) (entriesAt (fun _ i => kept i) ms) a.accepted
  rejected : List.Forall₂ (IsRejectedAs zone ms kept)
    (entriesAt (fun m i => m.enabled && !kept i) ms) a.rejected
  distinct : a.names.Nodup
  ascending : a.registry.names.Pairwise (· < ·)
  registered : ∀ name, name ∈ a.registry.names ↔ name ∈ a.names
  shown : ∀ x ∈ a.accepted, a.registry.get? x.name = some (.fresh x.name x.schedule)

section
variable {s : Settings} {zone : Zone}

theorem ofAgent_eq {agent : AgentSettings} (hzone : Zone.parse agent.timezone = .ok zone) :
    ofAgent agent =
      if agent.reportCapacity ≤ Channel.mostPlaces then .ok { zone } else .error .panic := by
  have hplaces : max agent.reportCapacity 1 ≤ Channel.mostPlaces ↔
      agent.reportCapacity ≤ Channel.mostPlaces :=
    Nat.max_le.trans (and_iff_left (by decide))
  rw [ofAgent, hzone]
  dsimp only
  rw [Channel.open?]
  simp only [hplaces]
  split_ifs <;> rfl

theorem ofSettings_eq (hzone : Zone.parse s.agent.timezone = .ok zone)
    (hplaces : s.agent.reportCapacity ≤ Channel.mostPlaces) :
    ofSettings s = .ok (upTo zone s.modules s.modules.length) := by
  rw [ofSettings, ofAgent_eq hzone, if_pos hplaces, upTo, List.take_length]

theorem ofSettings_panics (hzone : Zone.parse s.agent.timezone = .ok zone)
    (hplaces : ¬s.agent.reportCapacity ≤ Channel.mostPlaces) : ofSettings s = .error .panic := by
  rw [ofSettings, ofAgent_eq hzone, if_neg hplaces]

theorem of_ofSettings {a : Assembly} (ha : ofSettings s = .ok a) :
    ∃ zone, Zone.parse s.agent.timezone = .ok zone ∧
      s.agent.reportCapacity ≤ Channel.mostPlaces ∧ a = upTo zone s.modules s.modules.length := by
  cases hzone : Zone.parse s.agent.timezone with
  | error e =>
    rw [ofSettings, ofAgent, hzone] at ha
    exact nomatch ha
  | ok zone =>
    by_cases hplaces : s.agent.reportCapacity ≤ Channel.mostPlaces
    · rw [ofSettings_eq hzone hplaces] at ha
      exact ⟨zone, rfl, hplaces, (Except.ok.inj ha).symm⟩
    · rw [ofSettings_panics hzone hplaces] at ha
      exact nomatch ha

theorem sorts_upTo (zone : Zone) (ms : List ModuleSettings) :
    Sorts zone ms (keptIn zone ms) (upTo zone ms ms.length) where
  places := keptIn_admits
  accepted := by
    have h : List.Forall₂ _ (entriesAt _ (ms.take ms.length)) (upTo zone ms ms.length).accepted :=
      accepted_upTo ms.length
    rwa [List.take_length] at h
  rejected := by
    have h : List.Forall₂ _ (entriesAt _ (ms.take ms.length)) (upTo zone ms ms.length).rejected :=
      rejected_upTo ms.length
    rwa [List.take_length] at h
  distinct := nodup_names_upTo _
  ascending := ascending_registry _
  registered _ := mem_names_registry _
  shown _ hx := get?_registry _ (nodup_names_upTo _) hx

end

end Assembly

/-- The settings of an agent whose zone is known are sorted: accepted are, in order, the enabled
entries with a schedule and a name that is still free, rejected are, in order, the other enabled ones
with their errors, and the registry has just the accepted names with their schedules.  Entries that are
not accepted can be left out, or put in, anywhere: the accepted modules stay the same.  All this holds
as far as there are channels: for more places than a channel can have there is a panic and no agent. -/
theorem ofSettings_sorts_iff {s : Settings} {zone : Zone}
    (hzone : Zone.parse s.agent.timezone = .ok zone) :
    ((∃ a kept, Assembly.ofSettings s = .ok a ∧ a.Sorts zone s.modules kept ∧
        ∀ p : ModuleSettings → Nat → Bool, (∀ i m, kept i = true → p m i = true) →
          ∃ b, Assembly.ofSettings { s with modules := (Assembly.entriesAt p s.modules).map (·.1) }
              = .ok b ∧ b.accepted = a.accepted) ↔
      s.agent.reportCapacity ≤ Channel.mostPlaces) ∧
      (Channel.mostPlaces < s.agent.reportCapacity → Assembly.ofSettings s = .error .panic) := by
  refine ⟨⟨?_, fun hplaces => ?_⟩, fun h => Assembly.ofSettings_panics hzone (Nat.not_le.2 h)⟩
  · rintro ⟨a, -, ha, -⟩
    obtain ⟨-, -, hplaces, -⟩ := Assembly.of_ofSettings ha
    exact hplaces
  · refine ⟨_, Assembly.keptIn zone s.modules, Assembly.ofSettings_eq hzone hplaces,
      Assembly.sorts_upTo zone s.modules, fun p hp => ⟨_, Assembly.ofSettings_eq hzone hplaces, ?_⟩⟩
    have h := Assembly.accepted_addAll_of_kept hp s.modules.length
    rw [List.take_length] at h
    rw [Assembly.upTo, List.take_length, h]

end

open ZoneTable

/-- of a heartbeat, a disabled entry, another one of the same name, and one whose default interval is in
months, the first is accepted and the last two are rejected -/
theorem ofSettings_sorts_iff_four :
    let beat : ModuleSettings := { name := "beat", kind := .heartbeat }
    let s : Settings :=
      { modules := [beat, { beat with name := "off", enabled := false }, beat,
          { beat with name := "old", defaultInterval := .months 1 }] }
    Zone.parse s.agent.timezone = .ok .host ∧ s.agent.reportCapacity = 1024 ∧
      ∃ a kept, Assembly.ofSettings s = .ok a ∧ a.Sorts .host s.modules kept ∧
        a.names = ["beat"] ∧
        a.rejected = [⟨"beat", .invalidValue (.alreadyScheduled "beat")⟩,
          ⟨"old", .invalidValue .defaultInMonths⟩] := by
  intro beat s
  have hzone : Zone.parse s.agent.timezone = .ok .host := by decide +kernel
  refine ⟨hzone, rfl, ?_⟩
  obtain ⟨a, kept, ha, hsorts, -⟩ := (ofSettings_sorts_iff hzone).1.2 (by decide)
  have hlists : (Assembly.ofSettings s).map (fun a => (a.names, a.rejected)) =
      .ok (["beat"], [⟨"beat", .invalidValue (.alreadyScheduled "beat")⟩,
        ⟨"old", .invalidValue .defaultInMonths⟩]) := by decide +kernel
  rw [ha] at hlists
  obtain ⟨hnames, hrejected⟩ := Prod.mk.inj (Except.ok.inj hlists)
  exact ⟨a, kept, ha, hsorts, hnames, hrejected⟩

/-- settings that are valid, and whose zone is known, can ask for a channel that there is not -/
theorem not_ofSettings_isOk :
    ∃ s : Settings, s.fault? = none ∧ Zone.parse s.agent.timezone = .ok (.named .utc) ∧
      s.agent.reportCapacity = 2305843009213693952 ∧ ¬∃ a, Assembly.ofSettings s = .ok a := by
  refine ⟨{ agent := { timezone := "UTC", reportCapacity := 2305843009213693952 } },
    by decide +kernel, by decide +kernel, rfl, fun ⟨a, ha⟩ => ?_⟩
  obtain ⟨-, -, hplaces, -⟩ := Assembly.of_ofSettings ha
  exact absurd hplaces (by decide)

end Rota
