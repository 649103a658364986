import Rota.Proofs.Runner.Runs
import Rota.Proofs.State.Modules
import Rota.Zone.Table

/-!
# What the state file tells of a module

A module with a state directory saves every next run that it publishes, and the start of its last run
with it.  The directory outlives the loop, and the next life of the module begins with what it finds
there.  It does not take over the start of the last run, though: the first state that it saves tells
of no run at all, until a run of this life has come to its end.

* `RunnerInput.Loads`       a life begins with what the directory holds;
* `Lived`                   the lives of a module so far: what they left, and their runs;
* `Runner.Reflects`         the file tells of the published next run and of the last run of a list;
* `Runner.Keeps`            the invariant of one life, and `Runner.Keeps.step` that it is kept;
* `Runner.Reflects.iff`     two lists with one last run;
* `stateFile_iff`           the file tells of the last run of all lives exactly when that is a run of
                            this life, or there was none before.
-/

namespace Rota

def RunnerInput.Loads (store : StateStore) (name : String) (i : RunnerInput) : Prop :=
  ∀ now saved, i = .begin now saved → saved = store.load name

section
variable [ZoneDatabase]

/-- the lives of a module so far, each of them stopped or killed at any point: the state directory then,
and all the runs that came to their end -/
inductive Lived (name : String) (start : StateStore) : StateStore → List Run → Prop
  | start : Lived name start start []
  | life {store store' : StateStore} {history : List Run} (before : Lived name start store history)
      (z : ZoneClock) (s : Schedule) {inputs : List RunnerInput}
      (hloads : ∀ i ∈ inputs, i.Loads store name)
      (hstore : ((Runner.freshIn z name s).replay (some store) inputs).store = some store') :
    Lived name start store' (history ++ (Runner.freshIn z name s).runs (some store) inputs)

namespace Runner

/-- the file of a loop holds the fingerprint of its schedule, the next run as published, and the start
of the last one of these runs -/
def Reflects (r : Runner) (store : Option StateStore) (runs : List Run) : Prop :=
  ∃ s slot, store = some s ∧ r.status.nextRun = some slot ∧
    s.load r.name = .ok (some ⟨r.schedule.fingerprint, slot,
      runs.getLast?.map fun run => Stamp.ofMoment run.started⟩)

/-- a loop with a directory that takes its states keeps its file up to date -/
structure Keeps (r : Runner) (store : Option StateStore) (runs : List Run) : Prop where
  takes : ∃ s, store = some s ∧ s.Takes r.name
  fresh : r.phase = .fresh → runs = []
  reflects : r.phase ≠ .fresh → r.phase ≠ .brokenDown → r.Reflects store runs

/-! ## one step -/

section
variable {r r' : Runner} {store store' : Option StateStore} {i : RunnerInput} {runs : List Run}
  {new : List RunnerEvent} {done : Option Run}

theorem First.isValid {now : Moment} {saved : Except StateFault (Option SavedState)} {slot : Stamp}
    {trigger : Trigger} (h : r.First now saved slot trigger)
    (hsaved : ∀ state, saved = .ok (some state) → state.IsValid) : slot.IsValid := by
  cases h with
  | atOnce => exact Stamp.isValid_ofMoment now
  | found _ hslot =>
    have hnext (h : (r.schedule.cadence.next r.clock now).map Stamp.ofMoment = .ok slot) :
        slot.IsValid := by
      cases hq : r.schedule.cadence.next r.clock now with
      | error =>
        rw [hq] at h
        exact nomatch h
      | ok q =>
        rw [hq] at h
        rw [← Except.ok.inj h]
        exact Stamp.isValid_ofMoment q
    unfold firstSlot at hslot
    cases saved with
    | error => exact hnext hslot
    | ok saved =>
      dsimp only at hslot
      split at hslot
      case h_1 restored hr =>
        obtain ⟨state, rfl, e⟩ := Schedule.restoreIn?_nextRun hr
        rw [← Except.ok.inj hslot, ← e]
        exact (hsaved state rfl).nextRun
      case h_2 => exact hnext hslot
      case h_3 => exact nomatch hslot

theorem Keeps.await {slot : Stamp} {trigger : Trigger} {lastRun : Option Moment}
    (takes : ∃ s, store = some s ∧ s.Takes r.name) (hslot : slot.IsValid)
    (hlast : runs.getLast?.map (fun run => Stamp.ofMoment run.started) =
      lastRun.map Stamp.ofMoment) :
    (r.awaiting slot trigger).Keeps (r.keep store slot lastRun) runs := by
  obtain ⟨s, rfl, ht⟩ := takes
  have hvalid : (r.toSave slot lastRun).IsValid := by
    refine ⟨hslot, fun t h => ?_⟩
    obtain ⟨m, -, rfl⟩ := Option.map_eq_some_iff.1 h
    exact Stamp.isValid_ofMoment m
  refine ⟨⟨_, rfl, ht.save⟩, nofun, fun _ _ => ⟨_, slot, rfl, rfl, ?_⟩⟩
  rw [hlast]
  exact StateStore.load_save hvalid ht

theorem Keeps.unsaved (h : r.Keeps store runs) (hphase : r.phase ≠ .fresh) (hbroken : r.phase ≠ .brokenDown)
    (hfresh : r'.phase ≠ .fresh) (hname : r'.name = r.name) (hschedule : r'.schedule = r.schedule)
    (hnext : r'.status.nextRun = r.status.nextRun) : r'.Keeps store runs := by
  refine ⟨hname ▸ h.takes, fun e => absurd e hfresh, fun _ _ => ?_⟩
  unfold Reflects
  rw [hname, hschedule, hnext]
  exact h.reflects hphase hbroken

theorem Keeps.broken (h : r.Keeps store runs) {stats : RunStatistics} {runs' : List Run} :
    { r.breakDown with stats }.Keeps store runs' :=
  ⟨h.takes, nofun, fun _ hbroken => absurd rfl hbroken⟩

theorem Keeps.step (h : r.Keeps store runs) (does : r.Does store i r' store' new done)
    (hsaved : ∀ now state, i = .begin now (.ok (some state)) → state.IsValid) :
    r'.Keeps store' (runs ++ done.toList) := by
  cases does with
  | nothing => exact (List.append_nil runs).symm ▸ h
  | obey =>
    rw [Option.toList_none, List.append_nil]
    exact ⟨h.takes, h.fresh, h.reflects⟩
  | plan hphase hfirst =>
    -- no run is saved, and in this life there was none
    obtain rfl := h.fresh hphase
    exact .await h.takes (hfirst.isValid fun state e => hsaved _ state (by rw [e])) rfl
  | lose => exact h.broken
  | leave hphase =>
    rw [Option.toList_none, List.append_nil]
    exact h.unsaved (by rw [hphase]; nofun) (by rw [hphase]; nofun) nofun rfl rfl rfl
  | call hphase =>
    rw [Option.toList_none, List.append_nil]
    exact h.unsaved (by rw [hphase]; nofun) (by rw [hphase]; nofun) nofun rfl rfl rfl
  | collapse => exact h.broken
  | strand => exact h.broken
  | goOn =>
    refine Keeps.await (r := r.counting _) h.takes (Stamp.isValid_ofMoment _) ?_
    rw [Option.toList_some, List.getLast?_concat]
    rfl

end

/-! ## one life -/

section
variable {r₀ r : Runner} {store₀ : StateStore} {store : Option StateStore}
  {inputs : List RunnerInput} {deeds : List RunnerEvent} {runs : List Run}

theorem Course.keeps (h : r₀.Course (some store₀) inputs r store deeds runs)
    (h₀ : r₀.phase = .fresh) (ht : store₀.Takes r₀.name)
    (hloads : ∀ i ∈ inputs, i.Loads store₀ r₀.name) : r.Keeps store runs := by
  induction h with
  | start => exact ⟨⟨store₀, rfl, ht⟩, fun _ => rfl, fun h => absurd h₀ h⟩
  | @step inputs _ _ _ _ i _ _ _ _ _ does ih =>
    refine (ih fun j hj => hloads j (List.mem_append_left _ hj)).step does fun now state e => ?_
    -- a state that was read from a file is a valid one, whoever wrote it
    have hload := hloads i (by simp) now _ e
    exact StateStore.isValid_of_load hload.symm

theorem keeps_replay (z : ZoneClock) (name : String) (s : Schedule) {store : StateStore}
    (ht : store.Takes name) {inputs : List RunnerInput}
    (hloads : ∀ i ∈ inputs, i.Loads store name) :
    ((freshIn z name s).replay (some store) inputs).runner.Keeps
      ((freshIn z name s).replay (some store) inputs).store
      ((freshIn z name s).runs (some store) inputs) :=
  (course (freshIn z name s) (some store) inputs).keeps rfl ht hloads

theorem replay_name (z : ZoneClock) (name : String) (s : Schedule) (store : Option StateStore)
    (inputs : List RunnerInput) : ((freshIn z name s).replay store inputs).runner.name = name :=
  (course (freshIn z name s) store inputs).name

end

/-- what the file tells of two lists of runs is one thing exactly when they have one last run -/
theorem Reflects.iff {r : Runner} {store : Option StateStore} {runs runs' : List Run}
    (h : r.Reflects store runs) : r.Reflects store runs' ↔
      runs'.getLast?.map (fun run => Stamp.ofMoment run.started) =
        runs.getLast?.map fun run => Stamp.ofMoment run.started := by
  obtain ⟨s, slot, hstore, hnext, hload⟩ := h
  constructor
  · rintro ⟨s', slot', hstore', hnext', hload'⟩
    cases hstore.symm.trans hstore'
    cases hnext.symm.trans hnext'
    have e := hload'.symm.trans hload
    rw [Except.ok.injEq, Option.some.injEq, SavedState.mk.injEq] at e
    exact e.2.2
  · intro e
    refine ⟨s, slot, hstore, hnext, ?_⟩
    rw [e]
    exact hload

end Runner

/-! ## all lives -/

theorem Lived.takes {name : String} {start store : StateStore} {history : List Run}
    (h : Lived name start store history) (ht : start.Takes name) : store.Takes name := by
  induction h with
  | start => exact ht
  | @life store _ _ _ z s inputs hloads hstore ih =>
    obtain ⟨store', hstore', htakes⟩ := (Runner.keeps_replay z name s ih hloads).takes
    rw [Runner.replay_name] at htakes
    cases hstore.symm.trans hstore'
    exact htakes

/-- While the directory takes the states of a module, its file always holds the fingerprint of the
schedule, the next run as published, and the start of the last run that came to its end in this life.
That is the last run of all lives exactly when this life has completed a run, or no life before it
has. -/
theorem stateFile_iff {name : String} {start store : StateStore} {history : List Run}
    (hlived : Lived name start store history) (htakes : start.Takes name) (z : ZoneClock)
    (s : Schedule) {inputs : List RunnerInput} (hloads : ∀ i ∈ inputs, i.Loads store name) :
    let t := (Runner.freshIn z name s).replay (some store) inputs
    let runs := (Runner.freshIn z name s).runs (some store) inputs
    t.runner.phase ≠ .fresh → t.runner.phase ≠ .brokenDown →
      t.runner.Reflects t.store runs ∧
        (t.runner.Reflects t.store (history ++ runs) ↔ runs ≠ [] ∨ history = []) := by
  intro t runs hfresh hbroken
  have hown := (Runner.keeps_replay z name s (hlived.takes htakes) hloads).reflects hfresh hbroken
  refine ⟨hown, hown.iff.trans ?_⟩
  rw [List.getLast?_append]
  cases hlast : runs.getLast? with
  | some run =>
    have hne : runs ≠ [] := by
      rintro e
      rw [e] at hlast
      exact nomatch hlast
    exact iff_of_true rfl (.inl hne)
  | none =>
    have hnil : runs = [] := List.getLast?_eq_none_iff.1 hlast
    rw [Option.none_or, hnil]
    simp

end

/-! ## an hourly module -/

theorem loads_life {store : StateStore} {name : String} {now : Moment} {inputs : List RunnerInput}
    (h : ∀ now saved, .begin now saved ∉ inputs) :
    ∀ i ∈ RunnerInput.begin now (store.load name) :: inputs, i.Loads store name := by
  rintro i hi now saved rfl
  rcases List.mem_cons.1 hi with e | hi
  · cases e
    rfl
  · exact absurd hi (h now saved)

open ZoneTable

def Schedule.hourly : Schedule := ⟨.plainInterval 3600, false, .named .utc⟩

def Life.firstHour : Life where
  store := some .missing
  inputs :=
    [.begin ⟨1704067200000000000, by decide, by decide⟩ (StateStore.missing.load "hourly"),
      .look ⟨1704070800000000000, by decide, by decide⟩,
      .finish ⟨1704070800000000000, by decide, by decide⟩ 0 (.returned (.ok ()))]

def StateStore.afterFirstHour : StateStore :=
  (((Runner.freshIn (.fixed 0) "hourly" .hourly).replay Life.firstHour.store
    Life.firstHour.inputs).store).getD .missing

theorem Lived.firstHour : Lived "hourly" .missing .afterFirstHour
    ([] ++ (Runner.freshIn (.fixed 0) "hourly" .hourly).runs Life.firstHour.store
      Life.firstHour.inputs) :=
  .life .start (.fixed 0) .hourly (loads_life (by simp)) (by decide +kernel)

/-- the second life of an hourly module has run at two o'clock, and the file tells so -/
theorem stateFile_iff_hourly :
    ∃ (store : StateStore) (history : List Run) (inputs : List RunnerInput),
      Lived "hourly" .missing store history ∧ StateStore.missing.Takes "hourly" ∧
        (∀ i ∈ inputs, i.Loads store "hourly") ∧ history ≠ [] ∧
        let t := (Runner.freshIn (.fixed 0) "hourly" .hourly).replay (some store) inputs
        t.runner.phase = .waiting ∧ t.runner.Reflects t.store
          (history ++ (Runner.freshIn (.fixed 0) "hourly" .hourly).runs (some store) inputs) := by
  let inputs : List RunnerInput :=
    [.begin ⟨1704072600000000000, by decide, by decide⟩ (StateStore.afterFirstHour.load "hourly"),
      .look ⟨1704074400000000000, by decide, by decide⟩,
      .finish ⟨1704074401000000000, by decide, by decide⟩ 1000 (.returned (.ok ()))]
  have htakes : StateStore.missing.Takes "hourly" := StateStore.takes_missing (by decide)
  have hloads : ∀ i ∈ inputs, i.Loads .afterFirstHour "hourly" := loads_life (by simp)
  have hphase : ((Runner.freshIn (.fixed 0) "hourly" .hourly).replay (some .afterFirstHour)
      inputs).runner.phase = .waiting := by decide +kernel
  have hfile := (stateFile_iff Lived.firstHour htakes (.fixed 0) .hourly hloads
    (by simp [hphase]) (by simp [hphase])).2
  exact ⟨_, _, inputs, Lived.firstHour, htakes, hloads,
    List.ne_nil_of_length_pos (by decide +kernel), hphase,
    hfile.2 (.inl (List.ne_nil_of_length_pos (by decide +kernel)))⟩

/-- the second life of an hourly module waits for two o'clock, and the file does not tell any more
that it has run at one -/
theorem not_stateFile :
    ∃ (store : StateStore) (history : List Run) (inputs : List RunnerInput),
      Lived "hourly" .missing store history ∧ StateStore.missing.Takes "hourly" ∧
        (∀ i ∈ inputs, i.Loads store "hourly") ∧
        let t := (Runner.freshIn (.fixed 0) "hourly" .hourly).replay (some store) inputs
        t.runner.phase = .waiting ∧ ¬t.runner.Reflects t.store
          (history ++ (Runner.freshIn (.fixed 0) "hourly" .hourly).runs (some store) inputs) := by
  let inputs : List RunnerInput :=
    [.begin ⟨1704072600000000000, by decide, by decide⟩ (StateStore.afterFirstHour.load "hourly")]
  have htakes : StateStore.missing.Takes "hourly" := StateStore.takes_missing (by decide)
  have hloads : ∀ i ∈ inputs, i.Loads .afterFirstHour "hourly" := loads_life (by simp)
  have hphase : ((Runner.freshIn (.fixed 0) "hourly" .hourly).replay (some .afterFirstHour)
      inputs).runner.phase = .waiting := by decide +kernel
  have hown := (Runner.keeps_replay (.fixed 0) "hourly" .hourly (Lived.firstHour.takes htakes)
    hloads).reflects (by simp [hphase]) (by simp [hphase])
  refine ⟨_, _, inputs, Lived.firstHour, htakes, hloads, hphase, fun hall => ?_⟩
  exact absurd (hown.iff.1 hall) (by decide +kernel)

end Rota
