import Rota.Proofs.Agent.Assembly
import Rota.Proofs.Schedule.Acceptance
import Rota.Proofs.Simulation.Account

/-!
# Modules run independently

The modules of an agent share the clock, the channel, the registry, the state directory and the order to
stop.  None of these carries anything from one loop to another: a module is accepted or not whatever the
others are, and what it does after that is its own way.

* `Assembly.accepted_addAll`   under different names every entry is accepted or rejected by itself;
* `Agent.Alike`                two agents show the same of a module that both of them have;
* `modules_run_independently`  **one module more or less changes nothing of the others**.
-/

namespace Rota

/-! ## acceptance -/

section
variable [ZoneDatabase]

namespace Assembly

variable {zone : Zone} {m : ModuleSettings} {ms : List ModuleSettings}

theorem accept_of_free {taken : List String} (h : m.enabled = true → m.name ∉ taken) :
    accept zone taken m = accept zone [] m := by
  unfold accept
  cases henabled : m.enabled with
  | false => rfl
  | true =>
    cases m.defaultInterval with
    | months n => rfl
    | seconds n =>
      dsimp only
      rw [if_neg (h henabled), if_neg List.not_mem_nil]

theorem sublist_accept (zone : Zone) {β : Type} (f : String → β) (ms : List ModuleSettings) :
    ((ms.filterMap (accept zone [])).map fun x => f x.name).Sublist
      ((ms.filter (·.enabled)).map fun m => f m.name) := by
  induction ms with
  | nil => exact .slnil
  | cons m ms ih =>
    rw [List.filterMap_cons, List.filter_cons]
    cases hx : accept zone [] m with
    | none =>
      dsimp only
      split
      case isTrue => exact ih.cons _
      case isFalse => exact ih
    | some x =>
      obtain ⟨henabled, -, hname, -⟩ := accept_eq_some_iff.1 hx
      rw [if_pos henabled, List.map_cons, List.map_cons, hname]
      exact ih.cons_cons _

theorem accepted_addAll (ms : List ModuleSettings)
    (hnames : ((ms.filter (·.enabled)).map (·.name)).Nodup) :
    (addAll { zone } ms).accepted = ms.filterMap (accept zone []) := by
  induction ms using List.reverseRecOn with
  | nil => rfl
  | append_singleton ms m ih =>
    rw [List.filter_append, List.map_append] at hnames
    have hinit := ih hnames.of_append_left
    have hfree : m.enabled = true → m.name ∉ (addAll { zone } ms).names := by
      intro henabled hmem
      rw [names, hinit] at hmem
      rw [List.filter_singleton, henabled] at hnames
      exact (List.nodup_append.1 hnames).2.2 m.name ((sublist_accept zone id ms).subset hmem) m.name
        (List.mem_singleton.2 rfl) rfl
    rw [addAll_concat, (addConfigured_eq _ m).2.1, zone_addAll, accept_of_free hfree, hinit,
      List.filterMap_append]
    rfl

theorem mem_accept {x : Accepted} (hx : x ∈ ms.filterMap (accept zone [])) :
    x.schedule.cadence.Accepted ∧ ∀ host, (x.behaviour host).Signs x.name := by
  obtain ⟨m, -, hm⟩ := List.mem_filterMap.1 hx
  obtain ⟨-, -, hname, hbehaviour, seconds, adjustments, -, hnormalize⟩ := accept_eq_some_iff.1 hm
  rw [hname, hbehaviour]
  exact ⟨ScheduleConfig.accepted_of_normalize hnormalize, fun host => m.signs_behaviour host⟩

end Assembly

/-! ## one module more or less -/

/-- Two agents show the same of a module that both of them have: at any two points to which they come
with the same cues, whatever the modules do and whatever the order of the moves is, as far as they have
come, and at their ends. -/
structure Agent.Alike (settings : AgentSettings) (accepted accepted' : List Accepted) (origin : Moment)
    (store : Option StateStore) (p q : Publisher) (x : Accepted) : Prop where
  always : ∀ (callback : Accepted → Callback) (script : Nat → Cue) (c c' : Ensemble),
    (Ensemble.gather settings accepted callback origin store).Course p script c →
    (Ensemble.gather settings accepted' callback origin store).Course q script c' →
    Ensemble.Undisturbed x.name c c'
  atEnd : ∀ (host : Host) (passages : List Passage), ({ origin } : SimClock).Stays passages →
    (Agent.run host settings accepted origin store p passages).account x.name =
      (Agent.run host settings accepted' origin store q passages).account x.name

/-- Modules run independently.  Take settings whose enabled modules have different state files, and so
different names, and leave one module out.  Then the same others are accepted, in the same order, and the
agents show the same of each of them: the slots and the starts of its runs, its statistics, the statuses
that it published, its state file, and its reports in their order, whatever it does in its runs, in
whatever order the loops and the forwarder go on, whenever the wall clock is set and whenever all are
told to stop.  The sessions that run the agents, as long as the wall clock does not come to the end of
the calendar, are among these, and are the same at their ends.  Where there is no channel for an agent,
there is none without that module either. -/
theorem modules_run_independently {s : Settings} {pre post : List ModuleSettings} {m : ModuleSettings}
    (hmodules : s.modules = pre ++ m :: post) {zone : Zone}
    (hzone : Zone.parse s.agent.timezone = .ok zone)
    (hfiles : ((s.modules.filter (·.enabled)).map fun m => fileName m.name).Nodup) (origin : Moment)
    (store : Option StateStore) {p q : Publisher} (hp : p.Steady) (hq : q.Steady) :
    (s.agent.reportCapacity ≤ Channel.mostPlaces → ∃ a b, Assembly.ofSettings s = .ok a ∧
      Assembly.ofSettings { s with modules := pre ++ post } = .ok b ∧
      (∃ before after, b.accepted = before ++ after ∧
        a.accepted = before ++ (Assembly.accept zone [] m).toList ++ after) ∧
      ∀ x ∈ b.accepted, Agent.Alike s.agent a.accepted b.accepted origin store p q x) ∧
    (Channel.mostPlaces < s.agent.reportCapacity → Assembly.ofSettings s = .error .panic ∧
      Assembly.ofSettings { s with modules := pre ++ post } = .error .panic) := by
  refine ⟨fun hplaces => ?_, fun h => ?_⟩
  · have hsub : (pre ++ post).Sublist s.modules := by
      rw [hmodules]
      exact (List.sublist_cons_self m post).append_left pre
    have hfiles' : (((pre ++ post).filter (·.enabled)).map fun m => fileName m.name).Nodup :=
      hfiles.sublist ((hsub.filter _).map _)
    -- different files have different names
    have haccepted : ∀ ms : List ModuleSettings,
        ((ms.filter (·.enabled)).map fun m => fileName m.name).Nodup →
        (Assembly.addAll { zone } ms).accepted = ms.filterMap (Assembly.accept zone []) := fun ms h =>
      Assembly.accepted_addAll ms (List.Nodup.of_map fileName (by rwa [List.map_map]))
    refine ⟨Assembly.addAll { zone } s.modules, Assembly.addAll { zone } (pre ++ post), ?_, ?_, ?_, ?_⟩
    · rw [Assembly.ofSettings, Assembly.ofAgent_eq hzone, if_pos hplaces]
    · rw [Assembly.ofSettings, Assembly.ofAgent_eq hzone, if_pos hplaces]
    · refine ⟨pre.filterMap (Assembly.accept zone []), post.filterMap (Assembly.accept zone []), ?_, ?_⟩
      · rw [haccepted _ hfiles', List.filterMap_append]
      · rw [haccepted _ hfiles, hmodules, List.filterMap_append, List.filterMap_cons]
        cases Assembly.accept zone [] m <;> simp
    · rw [haccepted _ hfiles, haccepted _ hfiles']
      intro x hx
      have hx' := (hsub.filterMap (Assembly.accept zone [])).subset hx
      have hnodup := hfiles.sublist (Assembly.sublist_accept zone fileName s.modules)
      have hnodup' := hfiles'.sublist (Assembly.sublist_accept zone fileName (pre ++ post))
      exact {
        always := fun callback script c c' hcourse hcourse' =>
          Ensemble.undisturbed s.agent callback origin store hp hq hnodup hnodup' hcourse hcourse' hx' hx
        atEnd := fun host passages hstays =>
          Agent.account_run_eq hp hq hnodup hnodup' (fun y hy => (Assembly.mem_accept hy).1)
            (fun y hy => (Assembly.mem_accept hy).1) (fun y hy => (Assembly.mem_accept hy).2 host)
            (fun y hy => (Assembly.mem_accept hy).2 host) hstays hx' hx }
  · have hplaces := Nat.not_le.2 h
    exact ⟨Assembly.ofSettings_panics hzone hplaces,
      Assembly.ofSettings_panics (s := { s with modules := pre ++ post }) hzone hplaces⟩

end

open ZoneTable

/-- a heartbeat with another one beside it, whose reports are refused, and without -/
theorem modules_run_independently_beat :
    let beat : ModuleSettings :=
      { name := "beat", kind := .heartbeat, defaultInterval := .seconds 1,
        schedule := { runOnStart := true } }
    let s : Settings :=
      { agent := { timezone := "UTC", reportCapacity := 1 }
        modules := [{ beat with name := "other" }, beat] }
    let origin : Moment := ⟨1704067200000000000, by decide, by decide⟩
    s.modules = [] ++ { beat with name := "other" } :: [beat] ∧
      Zone.parse s.agent.timezone = .ok (.named .utc) ∧
      ((s.modules.filter (·.enabled)).map fun m => fileName m.name).Nodup ∧
      (Publisher.refusing ["other"] none).Steady ∧ Publisher.all.Steady ∧
      s.agent.reportCapacity ≤ Channel.mostPlaces ∧ ({ origin } : SimClock).Stays [.time 2500] ∧
      ∃ a b, Assembly.ofSettings s = .ok a ∧ Assembly.ofSettings { s with modules := [beat] } = .ok b ∧
        a.names = ["other", "beat"] ∧ b.names = ["beat"] ∧
        (Agent.run .busy s.agent a.accepted origin none (.refusing ["other"] none)
            [.time 2500]).account "beat" =
          (Agent.run .busy s.agent b.accepted origin none .all [.time 2500]).account "beat" ∧
        ((Agent.run .busy s.agent b.accepted origin none .all
          [.time 2500]).account "beat").reports.length = 3 := by
  intro beat s origin
  have hzone : Zone.parse s.agent.timezone = .ok (.named .utc) := by decide +kernel
  have hfiles : ((s.modules.filter (·.enabled)).map fun m => fileName m.name).Nodup := by decide +kernel
  have hp : (Publisher.refusing ["other"] none).Steady := by
    intro n r
    rw [Publisher.refusing, if_neg (Option.some_ne_none _).symm]
    split <;> simp
  have hq : Publisher.all.Steady := by simp [Publisher.Steady, Publisher.all]
  have hstays : ({ origin } : SimClock).Stays [.time 2500] := by decide +kernel
  have hmodules : s.modules = [] ++ { beat with name := "other" } :: [beat] := rfl
  have hplaces : s.agent.reportCapacity ≤ Channel.mostPlaces := by decide
  refine ⟨hmodules, hzone, hfiles, hp, hq, hplaces, hstays, ?_⟩
  obtain ⟨a, b, ha, hb, -, halike⟩ :=
    (modules_run_independently hmodules hzone hfiles origin none hp hq).1 hplaces
  have hnames : (Assembly.ofSettings s).map (·.names) = .ok ["other", "beat"] := by decide +kernel
  have hreports : (Assembly.ofSettings { s with modules := [beat] }).map (fun b => (b.names,
      ((Agent.run .busy s.agent b.accepted origin none .all
        [.time 2500]).account "beat").reports.length)) = .ok (["beat"], 3) := by decide +kernel
  rw [ha] at hnames
  change Assembly.ofSettings { s with modules := [beat] } = .ok b at hb
  rw [hb] at hreports
  obtain ⟨hbeat, hreports⟩ := Prod.mk.inj (Except.ok.inj hreports)
  obtain ⟨x, hx, hname⟩ : ∃ x ∈ b.accepted, x.name = "beat" :=
    List.mem_map.1 (hbeat ▸ List.mem_singleton.2 rfl : "beat" ∈ b.names)
  have hsame := (halike x hx).atEnd .busy [.time 2500] hstays
  rw [hname] at hsame
  exact ⟨a, b, ha, hb, Except.ok.inj hnames, hbeat, hsame, hreports⟩

end Rota
