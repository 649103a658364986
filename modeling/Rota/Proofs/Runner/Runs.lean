import Mathlib.Data.List.Induction
import Rota.Proofs.Runner.Step

/-!
# The runs of a loop

What a loop has done can be told in two ways: by its events, one after the other, and by its runs.  A
history is followed here step by step, and at every point of it the events, the runs, the statistics
and the phase of the loop fit together.

* `Runner.runs`        the runs that come to their end in a history;
* `Runner.Course`      a history step by step, and `Runner.course` that every history is one;
* `Run.stages`         what is seen of a run, from its start to the idle state after it;
* `RunStatistics.ofRuns`   what is counted of a list of runs;
* `Runner.Stands`      the events and the runs that go with each phase;
* `Runner.books`       in every history they do, and so do the statistics.
-/

namespace Rota

/-- what is counted of a list of runs: how many there are, and the last one in full -/
def RunStatistics.ofRuns (runs : List Run) : RunStatistics where
  runs := runs.length
  failures := runs.countP fun run => !Runner.succeeded run.result
  lastStarted := runs.getLast?.map fun run => run.started
  lastFinished := runs.getLast?.map fun run => run.finished
  lastDurationMs := runs.getLast?.map Run.ms
  lastError := runs.getLast?.bind fun run =>
    match run.result with
    | .ok () => none
    | .error e => some e.message

namespace RunnerEvent

def isStage : RunnerEvent → Bool
  | .entered _ => true
  | .called _ _ _ => true
  | .returned _ => true
  | .dismissed => true
  | _ => false

def call? : RunnerEvent → Option (Stamp × Moment × Trigger)
  | .called slot started trigger => some (slot, started, trigger)
  | _ => none

def result? : RunnerEvent → Option (Except RunError Unit)
  | .returned result => some result
  | _ => none

def state? : RunnerEvent → Option RunnerState
  | .entered state => some state
  | _ => none

section
variable (events : List RunnerEvent)

theorem calls_filter : (events.filter isStage).filterMap call? = events.filterMap call? := by
  apply filterMap_filter
  intro e he
  cases e with
  | called => exact nomatch he
  | _ => rfl

theorem results_filter : (events.filter isStage).filterMap result? = events.filterMap result? := by
  apply filterMap_filter
  intro e he
  cases e with
  | returned => exact nomatch he
  | _ => rfl

theorem states_filter : (events.filter isStage).filterMap state? = events.filterMap state? := by
  apply filterMap_filter
  intro e he
  cases e with
  | entered => exact nomatch he
  | _ => rfl

end

end RunnerEvent

namespace Run

def call (run : Run) : Stamp × Moment × Trigger := (run.slot, run.started, run.trigger)

def opening (slot : Stamp) (started : Moment) (trigger : Trigger) : List RunnerEvent :=
  [.entered .running, .called slot started trigger]

def work (run : Run) : List RunnerEvent :=
  opening run.slot run.started run.trigger ++ [.returned run.result]

def stages (run : Run) : List RunnerEvent := run.work ++ [.entered .idle]

theorem calls_stages (runs : List Run) :
    (runs.flatMap stages).filterMap RunnerEvent.call? = runs.map call := by
  rw [List.filterMap_flatMap, List.map_eq_flatMap]
  rfl

theorem results_stages (runs : List Run) :
    (runs.flatMap stages).filterMap RunnerEvent.result? = runs.map result := by
  rw [List.filterMap_flatMap, List.map_eq_flatMap]
  rfl

theorem states_stages (runs : List Run) : (runs.flatMap stages).filterMap RunnerEvent.state? =
    runs.flatMap fun _ => [.running, .idle] := by
  rw [List.filterMap_flatMap]
  rfl

end Run

namespace RunStatistics

theorem ofRuns_concat (runs : List Run) (run : Run) :
    ofRuns (runs ++ [run]) =
      Runner.count (ofRuns runs) run.started run.finished run.ms run.result := by
  obtain ⟨slot, trigger, started, finished, ms, result⟩ := run
  cases result <;> simp [ofRuns, Runner.count, Runner.succeeded]

theorem failures_le_runs (runs : List Run) : (ofRuns runs).failures ≤ (ofRuns runs).runs :=
  List.countP_le_length

end RunStatistics

namespace Runner

variable [ZoneDatabase]

/-! ## a history step by step -/

def runs (r : Runner) (store : Option StateStore) : List RunnerInput → List Run
  | [] => []
  | i :: inputs =>
    (r.completed? i).toList ++ (r.step store i).runner.runs (r.step store i).store inputs

section
variable (r : Runner) (store : Option StateStore) (xs ys : List RunnerInput)

theorem runs_append : r.runs store (xs ++ ys) =
    r.runs store xs ++ (r.replay store xs).runner.runs (r.replay store xs).store ys := by
  induction xs generalizing r store with
  | nil => rfl
  | cons i xs ih =>
    rw [List.cons_append, runs, runs, ih, List.append_assoc]
    rfl

theorem replay_append_events : (r.replay store (xs ++ ys)).events = (r.replay store xs).events
    ++ ((r.replay store xs).runner.replay (r.replay store xs).store ys).events := by
  rw [replay_append]

theorem replay_append_runner : (r.replay store (xs ++ ys)).runner =
    ((r.replay store xs).runner.replay (r.replay store xs).store ys).runner := by
  rw [replay_append]

theorem replay_append_store : (r.replay store (xs ++ ys)).store =
    ((r.replay store xs).runner.replay (r.replay store xs).store ys).store := by
  rw [replay_append]

end

/-- a history of a loop: the inputs so far, then the loop and the state directory as they are, the
deeds, and the runs that came to their end -/
inductive Course (r₀ : Runner) (store₀ : Option StateStore) :
    List RunnerInput → Runner → Option StateStore → List RunnerEvent → List Run → Prop
  | start : Course r₀ store₀ [] r₀ store₀ [] []
  | step {inputs r store deeds runs i r' store' new done}
      (before : Course r₀ store₀ inputs r store deeds runs)
      (does : r.Does store i r' store' new done) :
    Course r₀ store₀ (inputs ++ [i]) r' store' (deeds ++ new) (runs ++ done.toList)

theorem course (r : Runner) (store : Option StateStore) (inputs : List RunnerInput) :
    r.Course store inputs (r.replay store inputs).runner (r.replay store inputs).store
      ((r.replay store inputs).events.filter RunnerEvent.isDeed) (r.runs store inputs) := by
  -- a history grows at its end, so the induction is from there
  induction inputs using List.reverseRecOn with
  | nil => exact .start
  | append_singleton inputs i ih =>
    have hstep := step_does (r.replay store inputs).runner (r.replay store inputs).store i
    rw [replay_append_runner, replay_append_store, replay_append_events, runs_append,
      List.filter_append]
    simpa only [replay, runs, List.append_nil] using ih.step hstep

namespace Course

variable {r₀ r : Runner} {store₀ store : Option StateStore} {inputs : List RunnerInput}
  {deeds : List RunnerEvent} {runs : List Run}

theorem schedule (h : r₀.Course store₀ inputs r store deeds runs) : r.schedule = r₀.schedule := by
  induction h with
  | start => rfl
  | step _ does ih => exact does.schedule.trans ih

theorem clock (h : r₀.Course store₀ inputs r store deeds runs) : r.clock = r₀.clock := by
  induction h with
  | start => rfl
  | step _ does ih => exact does.clock.trans ih

theorem name (h : r₀.Course store₀ inputs r store deeds runs) : r.name = r₀.name := by
  induction h with
  | start => rfl
  | step _ does ih => exact does.name.trans ih

end Course

/-! ## the phase, the events and the runs -/

/-- the stages that are seen, the runs that came to their end, and those of them that the published
status counts, as they go with the phase and the published state of a loop -/
inductive Stands (r : Runner) : List RunnerEvent → List Run → List Run → Prop
  | idle {runs} (hphase : r.phase = .fresh ∨ r.phase = .waiting) (hstate : r.status.state = .idle) :
    Stands r (runs.flatMap Run.stages) runs runs
  | running {runs started} (hphase : r.phase = .running started)
      (hstate : r.status.state = .running) :
    Stands r (runs.flatMap Run.stages ++ Run.opening r.slot started r.trigger) runs runs
  | stopped {runs} (hphase : r.phase = .stopped) (hstate : r.status.state = .stopped) :
    Stands r (runs.flatMap Run.stages ++ [.dismissed, .entered .stopped]) runs runs
  | lost {runs} (hphase : r.phase = .brokenDown) (hstate : r.status.state = .idle) :
    Stands r (runs.flatMap Run.stages) runs runs
  | collapsed {runs slot started trigger} (hphase : r.phase = .brokenDown)
      (hstate : r.status.state = .running) :
    Stands r (runs.flatMap Run.stages ++ Run.opening slot started trigger) runs runs
  | stranded {runs run} (hphase : r.phase = .brokenDown) (hstate : r.status.state = .running) :
    Stands r (runs.flatMap Run.stages ++ run.work) (runs ++ [run]) runs

namespace Stands

variable {r : Runner} {seen : List RunnerEvent} {runs published : List Run}

theorem of_idle (h : r.Stands seen runs published) (hphase : r.phase = .fresh ∨ r.phase = .waiting) :
    seen = runs.flatMap Run.stages ∧ published = runs ∧ r.status.state = .idle := by
  cases h with
  | idle _ hstate => exact ⟨rfl, rfl, hstate⟩
  | _ h => rw [h] at hphase; simp at hphase

theorem of_running {started : Moment} (h : r.Stands seen runs published)
    (hphase : r.phase = .running started) :
    seen = runs.flatMap Run.stages ++ Run.opening r.slot started r.trigger ∧ published = runs ∧
      r.status.state = .running := by
  cases h with
  | running h hstate =>
    cases h.symm.trans hphase
    exact ⟨rfl, rfl, hstate⟩
  | _ h => rw [hphase] at h; simp at h

theorem of_stopped (h : r.Stands seen runs published) (hphase : r.phase = .stopped) :
    seen = runs.flatMap Run.stages ++ [.dismissed, .entered .stopped] ∧ published = runs ∧
      r.status.state = .stopped := by
  cases h with
  | stopped _ hstate => exact ⟨rfl, rfl, hstate⟩
  | idle h => rw [hphase] at h; simp at h
  | _ h => exact nomatch h.symm.trans hphase

theorem stop (h : r.Stands seen runs published) : r.stop.Stands seen runs published := by
  cases h with
  | idle hphase hstate => exact .idle hphase hstate
  | running hphase hstate => exact .running (r := r.stop) hphase hstate
  | stopped hphase hstate => exact .stopped hphase hstate
  | lost hphase hstate => exact .lost hphase hstate
  | collapsed hphase hstate => exact .collapsed hphase hstate
  | stranded hphase hstate => exact .stranded hphase hstate

end Stands

/-- everything that is told of the runs of a loop fits together -/
structure Books (r : Runner) (seen : List RunnerEvent) (runs published : List Run) : Prop where
  stands : r.Stands seen runs published
  stats : r.stats = .ofRuns runs
  status : r.status.stats = .ofRuns published

theorem Books.freshIn (z : ZoneClock) (name : String) (s : Schedule) :
    (Runner.freshIn z name s).Books [] [] [] where
  stands := by
    rw [← List.flatMap_nil (f := Run.stages)]
    exact .idle (.inl rfl) rfl
  stats := rfl
  status := rfl

section
variable {r r' : Runner} {store store' : Option StateStore} {seen new : List RunnerEvent}
  {runs published : List Run} {done : Option Run}

theorem Books.noRun (h : r.Books seen runs published) : r.Books seen (runs ++ []) published := by
  rwa [List.append_nil]

theorem Books.unseen (h : r.Books seen runs published) :
    r.Books (seen ++ []) (runs ++ []) published := by
  rw [List.append_nil]
  exact h.noRun

theorem Books.step (h : r.Books seen runs published) (effect : r.Effect store r' store' new done) :
    ∃ published', r'.Books (seen ++ new.filter RunnerEvent.isStage) (runs ++ done.toList)
      published' := by
  obtain ⟨hstands, hstats, hstatus⟩ := h
  cases effect with
  | nothing => exact ⟨published, .unseen ⟨hstands, hstats, hstatus⟩⟩
  | obey => exact ⟨published, .unseen ⟨hstands.stop, hstats, hstatus⟩⟩
  | plan hphase =>
    obtain ⟨rfl, rfl, hstate⟩ := hstands.of_idle (.inl hphase)
    exact ⟨published, .unseen ⟨.idle (.inr rfl) hstate, hstats, hstatus⟩⟩
  | lose hphase =>
    obtain ⟨rfl, rfl, hstate⟩ := hstands.of_idle (.inl hphase)
    exact ⟨published, .unseen ⟨.lost rfl hstate, hstats, hstatus⟩⟩
  | leave hphase =>
    obtain ⟨rfl, rfl, -⟩ := hstands.of_idle (.inr hphase)
    exact ⟨published, .noRun ⟨.stopped rfl rfl, hstats, hstatus⟩⟩
  | call hphase =>
    obtain ⟨rfl, rfl, -⟩ := hstands.of_idle (.inr hphase)
    exact ⟨published, .noRun ⟨.running rfl rfl, hstats, hstatus⟩⟩
  | collapse hphase =>
    obtain ⟨rfl, rfl, hstate⟩ := hstands.of_running hphase
    exact ⟨published, .unseen ⟨.collapsed rfl hstate, hstats, hstatus⟩⟩
  | @strand now ms started result hphase =>
    obtain ⟨rfl, rfl, hstate⟩ := hstands.of_running hphase
    have hwork : Run.opening r.slot started r.trigger ++ [.returned result] =
      Run.work ⟨r.slot, r.trigger, started, now, ms, result⟩ := rfl
    -- the loop has counted the run, its status has not
    refine ⟨published, ?_, ?_, hstatus⟩
    · rw [List.append_assoc]
      exact hwork ▸ .stranded rfl hstate
    · rw [Option.toList_some, RunStatistics.ofRuns_concat, ← hstats]
  | @goOn now ms started result next hphase =>
    obtain ⟨rfl, rfl, -⟩ := hstands.of_running hphase
    let run : Run := ⟨r.slot, r.trigger, started, now, ms, result⟩
    have hstages : (published ++ [run]).flatMap Run.stages =
        published.flatMap Run.stages ++ Run.opening r.slot started r.trigger ++
          [.returned result, .entered .idle] := by
      simp [List.flatMap_append, Run.stages, Run.work, run]
    have hcount : RunStatistics.ofRuns (published ++ [run]) =
        count r.stats started now ms result := by
      rw [RunStatistics.ofRuns_concat, ← hstats]
    refine ⟨published ++ [run], ?_, hcount.symm, hcount.symm⟩
    exact hstages ▸ .idle (.inr rfl) rfl

end

theorem Course.books {z : ZoneClock} {name : String} {s : Schedule} {r : Runner}
    {store₀ store : Option StateStore} {inputs : List RunnerInput} {deeds : List RunnerEvent}
    {runs : List Run} (h : (Runner.freshIn z name s).Course store₀ inputs r store deeds runs) :
    ∃ published, r.Books (deeds.filter RunnerEvent.isStage) runs published := by
  induction h with
  | start => exact ⟨[], .freshIn z name s⟩
  | step _ does ih =>
    obtain ⟨published, hbooks⟩ := ih
    rw [List.filter_append]
    exact hbooks.step does.effect

theorem books (z : ZoneClock) (name : String) (s : Schedule) (store : Option StateStore)
    (inputs : List RunnerInput) :
    ∃ published, ((freshIn z name s).replay store inputs).runner.Books
      (((freshIn z name s).replay store inputs).events.filter RunnerEvent.isStage)
      ((freshIn z name s).runs store inputs) published := by
  have h := (course (freshIn z name s) store inputs).books
  rwa [RunnerEvent.filter_deeds fun _ => rfl] at h

end Runner

end Rota
