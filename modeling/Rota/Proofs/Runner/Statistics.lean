import Rota.Proofs.Runner.Runs
import Rota.Runner.Measure

/-!
# The statistics of a loop

What is counted of the runs is kept in three places: by the loop itself, in its published status, and
in the metrics.  They are brought up to date at different points of a run, and still they agree with
what happened at every moment of every history.

* `Run.span`                 the two inputs between which a run lies;
* `Runner.Course.spans`      the runs of a history lie one after the other in it;
* `Metrics.of`               what is measured of one module;
* `ModuleMetrics.counters_foldl`   how its counters grow with the events of its loop;
* `Runner.Tells`             what the three places say when they agree;
* `statistics_tell`          they do.
-/

namespace Rota

namespace RunnerEvent

def measure? : RunnerEvent → Option (Nat × Bool)
  | .measured ms success => some (ms, success)
  | _ => none

end RunnerEvent

namespace Run

def measure (run : Run) : Nat × Bool := (run.ms, Runner.succeeded run.result)

def span (run : Run) : List RunnerInput :=
  [.look run.started, .finish run.finished run.ms (.returned run.result)]

end Run

/-! ## the metrics -/

namespace ModuleMetrics

/-- what an event of its loop adds to what is measured of a module -/
def observe (x : ModuleMetrics) : RunnerEvent → ModuleMetrics
  | .measured ms success => x.countRun ms success
  | .scheduled next _ => { x with nextRun := some next.moment.seconds }
  | _ => x

theorem counters_foldl (x : ModuleMetrics) (events : List RunnerEvent) :
    (events.foldl observe x).runs = x.runs + (events.filterMap RunnerEvent.measure?).length ∧
      (events.foldl observe x).failures =
        x.failures + (events.filterMap RunnerEvent.measure?).countP (!·.2) := by
  induction events using List.reverseRecOn with
  | nil => exact ⟨rfl, rfl⟩
  | append_singleton events e ih =>
    obtain ⟨hruns, hfailures⟩ := ih
    rw [List.foldl_append, List.filterMap_append, List.length_append, List.countP_append,
      ← Nat.add_assoc, ← Nat.add_assoc, ← hruns, ← hfailures]
    cases e with
    | measured ms success => cases success <;> exact ⟨rfl, rfl⟩
    | _ => exact ⟨rfl, rfl⟩

end ModuleMetrics

namespace Metrics

def of (m : Metrics) (name : String) : ModuleMetrics := (m.modules.lookup name).getD {}

section
variable (m : Metrics) (name : String)

theorem of_observe_self (e : RunnerEvent) : (m.observe name e).of name = (m.of name).observe e := by
  cases e with
  | measured ms success =>
    exact congrArg (·.getD {}) ((Assoc.lookup_alter name name _ m.modules).trans (if_pos rfl))
  | scheduled next lastRun =>
    exact congrArg (·.getD {}) ((Assoc.lookup_alter name name _ m.modules).trans (if_pos rfl))
  | _ => rfl

theorem of_observe_of_ne {other : String} (h : other ≠ name) (e : RunnerEvent) :
    (m.observe name e).of other = m.of other := by
  cases e with
  | measured ms success =>
    exact congrArg (·.getD {}) ((Assoc.lookup_alter name other _ m.modules).trans (if_neg h.symm))
  | scheduled next lastRun =>
    exact congrArg (·.getD {}) ((Assoc.lookup_alter name other _ m.modules).trans (if_neg h.symm))
  | _ => rfl

theorem of_observeAll_of_ne {other : String} (h : other ≠ name) (events : List RunnerEvent) :
    (m.observeAll name events).of other = m.of other := by
  induction events generalizing m with
  | nil => rfl
  | cons e events ih => exact (ih (m.observe name e)).trans (of_observe_of_ne m name h e)

theorem of_observeAll_self (events : List RunnerEvent) :
    (m.observeAll name events).of name = events.foldl ModuleMetrics.observe (m.of name) := by
  induction events generalizing m with
  | nil => rfl
  | cons e events ih =>
    rw [List.foldl_cons, ← of_observe_self]
    exact ih (m.observe name e)

end

end Metrics

namespace Runner

/-! ## the events and the runs -/

theorem countP_measures (runs : List Run) :
    (runs.map Run.measure).countP (!·.2) = (RunStatistics.ofRuns runs).failures := by
  rw [List.countP_map]
  rfl

variable [ZoneDatabase]

section
variable {r₀ r r' : Runner} {store₀ store store' : Option StateStore} {i : RunnerInput}
  {inputs : List RunnerInput} {deeds new : List RunnerEvent} {runs : List Run} {done : Option Run}

/-- what every step says of the run that it ends, the history says of all of them -/
theorem Course.filterMap_eq {α : Type} {f : RunnerEvent → Option α} {g : Run → α}
    (hstep : ∀ {r r' : Runner} {store store' : Option StateStore} {i new done},
      r.Does store i r' store' new done → new.filterMap f = done.toList.map g)
    (h : r₀.Course store₀ inputs r store deeds runs) : deeds.filterMap f = runs.map g := by
  induction h with
  | start => rfl
  | step _ does ih => rw [List.filterMap_append, List.map_append, ih, hstep does]

theorem Does.results (does : r.Does store i r' store' new done) :
    new.filterMap RunnerEvent.result? = done.toList.map Run.result := by
  cases does <;> rfl

theorem Does.measures (does : r.Does store i r' store' new done) :
    new.filterMap RunnerEvent.measure? = done.toList.map Run.measure := by
  cases does <;> rfl

def openSpan (r : Runner) : List RunnerInput :=
  match r.phase with
  | .running started => [.look started]
  | _ => []

theorem openSpan_of_not_running (h : ∀ m, r.phase ≠ .running m) : r.openSpan = [] := by
  unfold openSpan
  cases hphase : r.phase with
  | running m => exact absurd hphase (h m)
  | _ => rfl

theorem openSpan_of_running {started : Moment} (h : r.phase = .running started) :
    r.openSpan = [.look started] := by
  rw [openSpan, h]

theorem spans_concat (run : Run) (hphase : r.phase = .running run.started)
    (h : (runs.flatMap Run.span ++ r.openSpan).Sublist inputs) :
    ((runs ++ [run]).flatMap Run.span ++ []).Sublist
      (inputs ++ [RunnerInput.finish run.finished run.ms (.returned run.result)]) := by
  have hspan : (runs ++ [run]).flatMap Run.span ++ [] = (runs.flatMap Run.span ++ r.openSpan) ++
      [.finish run.finished run.ms (.returned run.result)] := by
    rw [openSpan_of_running hphase]
    simp [Run.span]
  rw [hspan]
  exact h.append_right _

theorem Course.spans (h₀ : r₀.phase = .fresh) (h : r₀.Course store₀ inputs r store deeds runs) :
    (runs.flatMap Run.span ++ r.openSpan).Sublist inputs := by
  induction h with
  | start =>
    rw [openSpan_of_not_running fun m => by simp [h₀]]
    exact .refl _
  | @step inputs r store deeds runs i _ _ _ _ _ does ih =>
    have hruns : ((runs ++ []).flatMap Run.span).Sublist inputs := by
      rw [List.append_nil]
      exact (List.sublist_append_left _ _).trans ih
    have hlater {l : List RunnerInput} (hl : l.Sublist inputs) : l.Sublist (inputs ++ [i]) :=
      hl.trans (List.sublist_append_left _ _)
    have hclosed : ((runs ++ []).flatMap Run.span ++ []).Sublist (inputs ++ [i]) := by
      rw [List.append_nil]
      exact hlater hruns
    cases does with
    | nothing => exact (List.append_nil runs).symm ▸ hlater ih
    | obey => exact (List.append_nil runs).symm ▸ hlater ih
    -- a run lies open between the look that starts it and its end
    | plan => exact hclosed
    | lose => exact hclosed
    | leave => exact hclosed
    | call => exact hruns.append_right _
    | collapse => exact hclosed
    | @strand now ms started result _ hphase =>
      exact spans_concat ⟨r.slot, r.trigger, started, now, ms, result⟩ hphase ih
    | @goOn now ms started result _ hphase =>
      exact spans_concat ⟨r.slot, r.trigger, started, now, ms, result⟩ hphase ih

end

namespace Stands

variable {r : Runner} {seen : List RunnerEvent} {runs published : List Run}

theorem atRest (h : r.Stands seen runs published) (hstate : r.status.state ≠ .running) :
    published = runs ∧ seen.filterMap RunnerEvent.call? = runs.map Run.call := by
  cases h with
  | idle => exact ⟨rfl, Run.calls_stages _⟩
  | lost => exact ⟨rfl, Run.calls_stages _⟩
  | stopped =>
    rw [List.filterMap_append, Run.calls_stages]
    exact ⟨rfl, List.append_nil _⟩
  | running _ h => exact absurd h hstate
  | collapsed _ h => exact absurd h hstate
  | stranded _ h => exact absurd h hstate

theorem atWork (h : r.Stands seen runs published) (hstate : r.status.state = .running) :
    published <+: runs ∧
      ∃ call, seen.filterMap RunnerEvent.call? = published.map Run.call ++ [call] := by
  have hdone {published : List Run} (l : List RunnerEvent) :
      (published.flatMap Run.stages ++ l).filterMap RunnerEvent.call? =
        published.map Run.call ++ l.filterMap RunnerEvent.call? := by
    rw [List.filterMap_append, Run.calls_stages]
  cases h with
  | running => exact ⟨List.prefix_refl _, _, hdone _⟩
  | collapsed => exact ⟨List.prefix_refl _, _, hdone _⟩
  | stranded => exact ⟨List.prefix_append _ _, _, hdone _⟩
  | idle _ h => exact nomatch h.symm.trans hstate
  | lost _ h => exact nomatch h.symm.trans hstate
  | stopped _ h => exact nomatch h.symm.trans hstate

end Stands

/-! ## everything together -/

/-- what the statistics of a loop, its published status and its metrics tell of a history and of the
runs that came to their end in it -/
structure Tells (name : String) (inputs : List RunnerInput) (t : Turn) (runs : List Run) :
    Prop where
  returned : t.events.filterMap RunnerEvent.result? = runs.map Run.result
  spans : (runs.flatMap Run.span).Sublist inputs
  stats : t.runner.stats = .ofRuns runs
  failures_le : t.runner.stats.failures ≤ t.runner.stats.runs
  atRest : t.runner.status.state ≠ .running → t.runner.status.stats = t.runner.stats ∧
    t.events.filterMap RunnerEvent.call? = runs.map Run.call
  atWork : t.runner.status.state = .running → ∃ earlier, earlier <+: runs ∧
    t.runner.status.stats = .ofRuns earlier ∧
      ∃ call, t.events.filterMap RunnerEvent.call? = earlier.map Run.call ++ [call]
  stopped : t.runner.phase = .stopped → t.runner.status.state = .stopped
  counters : ∀ m : Metrics,
    ((m.observeAll name t.events).of name).runs = (m.of name).runs + t.runner.stats.runs ∧
      ((m.observeAll name t.events).of name).failures =
        (m.of name).failures + t.runner.stats.failures
  others : ∀ m : Metrics, ∀ other ≠ name, (m.observeAll name t.events).of other = m.of other

end Runner

/-- At every moment of every history, whatever the runs of a loop return and however its clock is set:
the loop's own statistics count the runs that returned, with the last one in full; the published status
shows the same, or, during a run, what was true before it; and the metrics have grown by that much. -/
theorem statistics_tell [ZoneDatabase] (z : ZoneClock) (name : String) (s : Schedule) (store : Option StateStore)
    (inputs : List RunnerInput) :
    Runner.Tells name inputs ((Runner.freshIn z name s).replay store inputs)
      ((Runner.freshIn z name s).runs store inputs) := by
  have hcourse := Runner.course (Runner.freshIn z name s) store inputs
  obtain ⟨published, hstands, hstats, hstatus⟩ := Runner.books z name s store inputs
  have hresults := hcourse.filterMap_eq Runner.Does.results
  have hmeasures := hcourse.filterMap_eq Runner.Does.measures
  rw [RunnerEvent.filterMap_deeds fun _ => rfl] at hresults hmeasures
  have hcalls := RunnerEvent.calls_filter ((Runner.freshIn z name s).replay store inputs).events
  refine ⟨hresults, (List.sublist_append_left _ _).trans (hcourse.spans rfl), hstats, ?_, ?_, ?_,
    fun hphase => (hstands.of_stopped hphase).2.2, ?_, fun m other h => m.of_observeAll_of_ne name h _⟩
  · rw [hstats]
    exact RunStatistics.failures_le_runs _
  · intro hstate
    obtain ⟨rfl, hall⟩ := hstands.atRest hstate
    exact ⟨hstatus.trans hstats.symm, hcalls ▸ hall⟩
  · intro hstate
    obtain ⟨hpublished, call, hall⟩ := hstands.atWork hstate
    exact ⟨published, hpublished, hstatus, call, hcalls ▸ hall⟩
  · intro m
    have h := (m.of name).counters_foldl ((Runner.freshIn z name s).replay store inputs).events
    rw [hmeasures, List.length_map, Runner.countP_measures] at h
    rw [m.of_observeAll_self, hstats]
    exact h

end Rota
