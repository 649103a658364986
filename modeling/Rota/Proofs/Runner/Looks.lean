import Rota.Proofs.Runner.Runs

/-!
# A look at the clock, step by step

A loop that looks at the clock first checks whether it was told to stop, and does not check again before
its module runs.  So an order to stop can come too late for one run.  Here a history is followed through
every step of its looks.

* `LoopInput.whole?`         the steps that are no part of a look;
* `Loop.Does`, `Loop.step_does`   what a step does, and that every step does that;
* `Loop.Sane`                a loop looks at the clock while it waits, and only then;
* `Loop.books`               the events, the runs and the statistics fit together here too;
* `Loop.replay_looks`        looks that nothing comes between are such a history.
-/

namespace Rota

def LoopInput.whole? : LoopInput → Option RunnerInput
  | .begin now saved => some (.begin now saved)
  | .finish now ms ending => some (.finish now ms ending)
  | .stop => some .stop
  | _ => none

def LoopInput.reading? : LoopInput → Option Moment
  | .read now => some now
  | _ => none

namespace Loop

variable [ZoneDatabase]

def completed? (l : Loop) (i : LoopInput) : Option Run := i.whole?.bind l.runner.completed?

def Ignores (l : Loop) : LoopInput → Prop
  | .check => l.runner.phase = .waiting → l.stage ≠ .outside
  | .read _ => l.stage ≠ .unstopped
  | .start _ => l.stage ≠ .due
  | _ => False

/-- a step goes on with a look, or ends it, and does nothing else -/
inductive Advances (l : Loop) : LoopInput → Stage → Prop
  | unstopped (hphase : l.runner.phase = .waiting) (hstage : l.stage = .outside)
      (hstop : l.runner.stopping = false) : Advances l .check .unstopped
  | early {now} (hstage : l.stage = .unstopped) (hearly : l.runner.slot.isAfter now = true) :
    Advances l (.read now) .outside
  | due {now} (hstage : l.stage = .unstopped) (hdue : l.runner.slot.isAfter now = false) :
    Advances l (.read now) .due

/-- what a step does: the input, then the loop and the state directory that it leaves, its deeds, and
the run that it ends -/
inductive Does (l : Loop) (store : Option StateStore) :
    LoopInput → Loop → Option StateStore → List RunnerEvent → Option Run → Prop
  | whole {i j r' store' deeds done} (hi : i.whole? = some j)
      (does : l.runner.Does store j r' store' deeds done) :
    Does l store i { l with runner := r' } store' deeds done
  | nothing {i} (h : l.Ignores i) : Does l store i l store [] none
  | advance {i stage} (h : l.Advances i stage) : Does l store i { l with stage } store [] none
  | leave (hphase : l.runner.phase = .waiting) (hstage : l.stage = .outside)
      (hstop : l.runner.stopping = true) :
    Does l store .check ⟨l.runner.leaving, .outside⟩ store [.dismissed, .entered .stopped] none
  | call {now} (hstage : l.stage = .due) :
    Does l store (.start now) ⟨l.runner.calling now, .outside⟩ store
      [.entered .running, .called l.runner.slot now l.runner.trigger] none

def Sane (l : Loop) : Prop := l.stage = .outside ∨ l.runner.phase = .waiting

section
variable (l : Loop) (store : Option StateStore)

theorem step_does (i : LoopInput) :
    l.Does store i (l.step store i).loop (l.step store i).store
      ((l.step store i).events.filter RunnerEvent.isDeed) (l.completed? i) := by
  cases i with
  | begin now saved => exact .whole rfl (Runner.begin_does l.runner store now saved)
  | finish now ms ending => exact .whole rfl (Runner.finish_does l.runner store now ms ending)
  | stop => exact .whole rfl .obey
  | check =>
    show l.Does store .check (l.check store).loop (l.check store).store
      ((l.check store).events.filter RunnerEvent.isDeed) none
    unfold Loop.check
    split
    case h_2 h => exact .nothing fun hphase hstage => h hphase hstage
    case h_1 hphase hstage =>
      split
      case isTrue hstop => exact .leave hphase hstage hstop
      case isFalse hstop => exact .advance (.unstopped hphase hstage (Bool.eq_false_iff.2 hstop))
  | read now =>
    show l.Does store (.read now) (l.read store now).loop (l.read store now).store
      ((l.read store now).events.filter RunnerEvent.isDeed) none
    unfold Loop.read
    split
    case h_2 h => exact .nothing h
    case h_1 hstage =>
      cases hdue : l.runner.slot.isAfter now with
      | true => exact .advance (.early hstage hdue)
      | false => exact .advance (.due hstage hdue)
  | start now =>
    show l.Does store (.start now) (l.start store now).loop (l.start store now).store
      ((l.start store now).events.filter RunnerEvent.isDeed) none
    unfold Loop.start
    split
    case h_2 h => exact .nothing h
    case h_1 hstage => exact .call hstage

end

section
variable {l l' : Loop} {store store' : Option StateStore} {i : LoopInput} {deeds : List RunnerEvent}
  {done : Option Run}

theorem Sane.waiting (h : l.Sane) (hstage : l.stage ≠ .outside) : l.runner.phase = .waiting :=
  h.resolve_left hstage

theorem Does.effect (does : l.Does store i l' store' deeds done) (h : l.Sane) :
    l.runner.Effect store l'.runner store' deeds done := by
  cases does with
  | whole _ does => exact does.effect
  | nothing => exact .nothing
  | advance => exact .nothing
  | leave hphase => exact .leave hphase
  | call hstage => exact .call (h.waiting (by simp [hstage]))

theorem Does.sane (does : l.Does store i l' store' deeds done) (h : l.Sane) : l'.Sane := by
  cases does with
  | @whole _ j _ _ _ _ hi does =>
    refine h.imp_right fun hphase => ?_
    -- begin and finish do not fit a loop that waits
    cases does with
    | nothing => exact hphase
    | obey => exact hphase
    | plan hfresh => exact nomatch hphase.symm.trans hfresh
    | lose hfresh => exact nomatch hphase.symm.trans hfresh
    | leave => cases i <;> exact nomatch hi
    | call => cases i <;> exact nomatch hi
    | collapse hrun => exact nomatch hphase.symm.trans hrun
    | strand hrun => exact nomatch hphase.symm.trans hrun
    | goOn hrun => exact nomatch hphase.symm.trans hrun
  | nothing => exact h
  | advance hadvance =>
    cases hadvance with
    | unstopped hphase => exact .inr hphase
    | early => exact .inl rfl
    | due hstage => exact .inr (h.waiting (by simp [hstage]))
  | leave => exact .inl rfl
  | call => exact .inl rfl

end

/-! ## histories -/

/-- the runs that come to their end in a history -/
def runs (l : Loop) (store : Option StateStore) : List LoopInput → List Run
  | [] => []
  | i :: inputs => (l.completed? i).toList ++ (l.step store i).loop.runs (l.step store i).store inputs

section
variable (l : Loop) (store : Option StateStore) (xs ys : List LoopInput)

theorem replay_append : l.replay store (xs ++ ys) =
    { (l.replay store xs).loop.replay (l.replay store xs).store ys with
      events := (l.replay store xs).events
        ++ ((l.replay store xs).loop.replay (l.replay store xs).store ys).events } := by
  induction xs generalizing l store with
  | nil => rfl
  | cons i xs ih => simp [replay, ih]

theorem runs_append : l.runs store (xs ++ ys) =
    l.runs store xs ++ (l.replay store xs).loop.runs (l.replay store xs).store ys := by
  induction xs generalizing l store with
  | nil => rfl
  | cons i xs ih =>
    rw [List.cons_append, runs, runs, ih, List.append_assoc]
    rfl

theorem Sane.replay {l : Loop} (h : l.Sane) : (l.replay store xs).loop.Sane := by
  induction xs generalizing l store with
  | nil => exact h
  | cons i xs ih => exact ih _ ((step_does l store i).sane h)

end

/-- everything that is told of the runs of a loop fits together, at every step of its looks -/
theorem books (z : ZoneClock) (name : String) (s : Schedule) (store : Option StateStore)
    (inputs : List LoopInput) :
    ∃ published, ((freshIn z name s).replay store inputs).loop.runner.Books
      (((freshIn z name s).replay store inputs).events.filter RunnerEvent.isStage)
      ((freshIn z name s).runs store inputs) published := by
  induction inputs using List.reverseRecOn with
  | nil => exact ⟨[], .freshIn z name s⟩
  | append_singleton inputs i ih =>
    obtain ⟨published, hbooks⟩ := ih
    have hsane : ((freshIn z name s).replay store inputs).loop.Sane :=
      Sane.replay store inputs (.inl rfl)
    have does := step_does ((freshIn z name s).replay store inputs).loop
      ((freshIn z name s).replay store inputs).store i
    obtain ⟨published', hstep⟩ := hbooks.step (does.effect hsane)
    refine ⟨published', ?_⟩
    rw [replay_append, runs_append, List.filter_append]
    rw [RunnerEvent.filter_deeds fun _ => rfl] at hstep
    simpa only [Loop.replay, runs, List.append_nil] using hstep

end Loop

/-! ## looks that nothing comes between -/

def RunnerInput.steps : RunnerInput → List LoopInput
  | .begin now saved => [.begin now saved]
  | .look now => [.check, .read now, .start now]
  | .finish now ms ending => [.finish now ms ending]
  | .stop => [.stop]

namespace Loop

section
variable [ZoneDatabase] (r : Runner) (store : Option StateStore)

theorem stage_look (now : Moment) :
    (replay ⟨r, .outside⟩ store [.check, .read now, .start now]).loop.stage = .outside := by
  by_cases hphase : r.phase = .waiting
  · cases hstop : r.stopping <;> cases hdue : r.slot.isAfter now <;>
      simp [replay, step, check, read, start, ofTurn, hphase, hstop, hdue]
  · simp [replay, step, check, read, start, hphase]

theorem replay_steps (i : RunnerInput) :
    replay ⟨r, .outside⟩ store i.steps = ofTurn (r.step store i) .outside := by
  cases i with
  | look now =>
    have hstage := stage_look r store now
    show replay ⟨r, .outside⟩ store [.check, .read now, .start now] = ofTurn (r.look store now) .outside
    rw [Runner.look]
    generalize replay ⟨r, .outside⟩ store [.check, .read now, .start now] = t at hstage ⊢
    obtain ⟨⟨r', stage⟩, store', events⟩ := t
    cases hstage
    rfl
  | begin now saved => simp [RunnerInput.steps, replay, step, ofTurn, Runner.step]
  | finish now ms ending => simp [RunnerInput.steps, replay, step, ofTurn, Runner.step]
  | stop => rfl

/-- a history of looks that nothing comes between, step by step -/
theorem replay_looks (inputs : List RunnerInput) :
    replay ⟨r, .outside⟩ store (inputs.flatMap RunnerInput.steps) =
      ofTurn (r.replay store inputs) .outside := by
  induction inputs generalizing r store with
  | nil => rfl
  | cons i inputs ih =>
    rw [List.flatMap_cons, replay_append, replay_steps]
    simp only [ofTurn, ih]
    rfl

end

end Loop

end Rota
