import Rota.Proofs.Runner.Looks
import Rota.Proofs.Schedule.Advance
import Rota.Zone.Table

/-!
# From the start of a loop to its end

A loop is told to stop at some point of its history: before it starts, while it waits, in the midst of a
look at the clock, or during a run.  A run under way comes to its end and is counted, and then the module
is told that its loop is over.  No run starts after the order, but for one to which the loop had committed
itself when the order came.  The loop breaks down on the way only if a slot that it looks for is not
found, and then the module is never told.

* `Loop.LosesSlot`, `Loop.FindsAll`   whether every slot that is looked for is found;
* `Loop.brokenDown_iff`     a loop whose runs all return breaks down only if one is not;
* `Loop.Committed`          the loop runs its module without another check;
* `Loop.late`               after the order there is one run at the most, if the loop was committed to it;
* `Runner.IsOver`           the end of a loop, and `Loop.isOver_of_check` that it comes;
* `Loop.Orderly`, `Loop.LifeCycle`   the life of a loop as it should be, but for late runs, and with them;
* `lifeCycle_iff`           **it is so exactly when every slot is found**, which in UTC it is, **and the
                            loop was not committed to a run when it was told**.
-/

namespace Rota

def RunnerInput.IsBreakdown (i : RunnerInput) : Prop := ∃ now ms, i = .finish now ms .breakdown

def LoopInput.IsBreakdown (i : LoopInput) : Prop := ∃ now ms, i = .finish now ms .breakdown

/-- whether the module is at work: one run more was started than has ended -/
def AtWork (events : List RunnerEvent) : Prop :=
  (events.filterMap RunnerEvent.call?).length = (events.filterMap RunnerEvent.result?).length + 1

theorem LoopInput.isBreakdown_of_whole {i : LoopInput} {j : RunnerInput} (hi : i.whole? = some j)
    (h : j.IsBreakdown) : i.IsBreakdown := by
  obtain ⟨now, ms, rfl⟩ := h
  cases i with
  | finish =>
    cases hi
    exact ⟨_, _, rfl⟩
  | _ => exact nomatch hi

namespace Runner

theorem atWork_stages (runs : List Run) (l : List RunnerEvent) :
    AtWork (runs.flatMap Run.stages ++ l) ↔ AtWork l := by
  unfold AtWork
  rw [List.filterMap_append, List.filterMap_append, Run.calls_stages, Run.results_stages,
    List.length_append, List.length_append, List.length_map, List.length_map]
  omega

theorem dismissed_notMem_stages (runs : List Run) {l : List RunnerEvent} (h : .dismissed ∉ l) :
    .dismissed ∉ runs.flatMap Run.stages ++ l := by
  intro hmem
  rcases List.mem_append.1 hmem with hmem | hmem
  · obtain ⟨run, -, hrun⟩ := List.mem_flatMap.1 hmem
    simp [Run.stages, Run.work, Run.opening] at hrun
  · exact h hmem

end Runner

section
variable [ZoneDatabase]

namespace Runner

/-- a slot is looked for and not found -/
inductive LosesSlot (r : Runner) : RunnerInput → Prop
  | first {now saved e} (hphase : r.phase = .fresh) (hrun : r.schedule.runOnStart = false)
      (h : (r.firstSlot saved now).1 = .error e) : LosesSlot r (.begin now saved)
  | next {now ms started result e} (hphase : r.phase = .running started)
      (h : r.slotAfter started now = .error e) : LosesSlot r (.finish now ms (.returned result))

def IsOver (r : Runner) : Prop := r.phase = .stopped ∨ r.phase = .brokenDown

end Runner

namespace Loop

def LosesSlot (l : Loop) (i : LoopInput) : Prop := ∃ j, i.whole? = some j ∧ l.runner.LosesSlot j

def FindsAll (l : Loop) (store : Option StateStore) : List LoopInput → Prop
  | [] => True
  | i :: inputs => ¬l.LosesSlot i ∧ (l.step store i).loop.FindsAll (l.step store i).store inputs

/-- the loop runs its module without another check: its slot is due, or will be when the clock is read
next -/
def Committed (l : Loop) (inputs : List LoopInput) : Prop :=
  l.stage = .due ∨ l.stage = .unstopped ∧
    ∃ now, inputs.findSome? LoopInput.reading? = some now ∧ l.runner.slot.isAfter now = false

/-- the life of a loop up to its end -/
structure Orderly (l : Loop) (store : Option StateStore) (inputs : List LoopInput) : Prop where
  stages : (l.replay store inputs).events.filter RunnerEvent.isStage =
    (l.runs store inputs).flatMap Run.stages ++ [.dismissed, .entered .stopped]
  states : l.runner.status.state ::
      (l.replay store inputs).events.filterMap RunnerEvent.state? =
    .idle :: ((l.runs store inputs).flatMap fun _ => [.running, .idle]) ++ [.stopped]
  running : ∀ sofar, sofar <+: inputs →
    ((l.replay store sofar).loop.runner.status.state = .running ↔
      AtWork (l.replay store sofar).events)
  completes : (l.runs store inputs).map Run.call =
    (l.replay store inputs).events.filterMap RunnerEvent.call?
  counted : (l.replay store inputs).loop.runner.stats = .ofRuns (l.runs store inputs)

def lateCalls (l : Loop) (store : Option StateStore) (before after : List LoopInput) :
    List (Stamp × Moment × Trigger) :=
  ((l.replay store before).loop.replay (l.replay store before).store
    (.stop :: after)).events.filterMap RunnerEvent.call?

/-- the life of a loop that is told to stop after the inputs `before`, up to its end -/
structure LifeCycle (l : Loop) (store : Option StateStore) (before after : List LoopInput) : Prop
    extends Orderly l store (before ++ .stop :: after) where
  quiet : l.lateCalls store before after = []

end Loop

/-! ## a loop breaks down only if a slot is not found -/

namespace Runner

section
variable {r r' : Runner} {store store' : Option StateStore} {i : RunnerInput}
  {new : List RunnerEvent} {done : Option Run}

theorem Does.not_brokenDown (does : r.Does store i r' store' new done)
    (h : r.phase ≠ .brokenDown) (hfound : ¬r.LosesSlot i) (hi : ¬i.IsBreakdown) :
    r'.phase ≠ .brokenDown := by
  cases does with
  | nothing => exact h
  | obey => exact h
  | lose hphase hrun hslot => exact absurd (.first hphase hrun hslot) hfound
  | collapse => exact absurd ⟨_, _, rfl⟩ hi
  | strand hphase hnext => exact absurd (.next hphase hnext) hfound
  | plan => exact nofun
  | leave => exact nofun
  | call => exact nofun
  | goOn => exact nofun

theorem Does.brokenDown (does : r.Does store i r' store' new done) (h : r.phase = .brokenDown) :
    r'.phase = .brokenDown := by
  cases does with
  | nothing => exact h
  | obey => exact h
  | lose => rfl
  | collapse => rfl
  | strand => rfl
  | plan hphase => exact nomatch h.symm.trans hphase
  | leave hphase => exact nomatch h.symm.trans hphase
  | call hphase => exact nomatch h.symm.trans hphase
  | goOn hphase => exact nomatch h.symm.trans hphase

theorem Does.lost (does : r.Does store i r' store' new done) (h : r.LosesSlot i) :
    r'.phase = .brokenDown := by
  cases h with
  | first hphase hrun hslot =>
    cases does with
    | nothing h => exact absurd hphase h
    | lose => rfl
    | plan _ hfirst =>
      cases hfirst with
      | atOnce h => exact nomatch hrun.symm.trans h
      | found _ h => exact nomatch hslot.symm.trans h
  | next hphase hslot =>
    cases does with
    | nothing h => exact absurd hphase (h _)
    | strand => rfl
    | goOn hphase' h =>
      cases hphase.symm.trans hphase'
      exact nomatch hslot.symm.trans h

end

end Runner

namespace Loop

section
variable {l l' : Loop} {store store' : Option StateStore} {i : LoopInput} {new : List RunnerEvent}
  {done : Option Run}

theorem Does.not_brokenDown (does : l.Does store i l' store' new done)
    (h : l.runner.phase ≠ .brokenDown) (hfound : ¬l.LosesSlot i) (hi : ¬i.IsBreakdown) :
    l'.runner.phase ≠ .brokenDown := by
  cases does with
  | whole hwhole does =>
    exact does.not_brokenDown h (fun hlost => hfound ⟨_, hwhole, hlost⟩)
      fun hj => hi (LoopInput.isBreakdown_of_whole hwhole hj)
  | nothing => exact h
  | advance => exact h
  | leave => exact nofun
  | call => exact nofun

theorem Does.brokenDown (does : l.Does store i l' store' new done) (hsane : l.Sane)
    (h : l.runner.phase = .brokenDown) : l'.runner.phase = .brokenDown := by
  cases does with
  | whole _ does => exact does.brokenDown h
  | nothing => exact h
  | advance => exact h
  | leave hphase => exact nomatch h.symm.trans hphase
  | call hstage => exact nomatch h.symm.trans (hsane.waiting (by simp [hstage]))

theorem Does.lost (does : l.Does store i l' store' new done) (h : l.LosesSlot i) :
    l'.runner.phase = .brokenDown := by
  obtain ⟨j, hj, hlost⟩ := h
  cases does with
  | whole hi does =>
    cases hi.symm.trans hj
    exact does.lost hlost
  | nothing h => cases i <;> first | exact h.elim | exact nomatch hj
  | advance h => cases h <;> exact nomatch hj
  | leave => exact nomatch hj
  | call => exact nomatch hj

end

section
variable (l : Loop) (store : Option StateStore)

theorem brokenDown_replay (hsane : l.Sane) (h : l.runner.phase = .brokenDown)
    (inputs : List LoopInput) : (l.replay store inputs).loop.runner.phase = .brokenDown := by
  induction inputs generalizing l store with
  | nil => exact h
  | cons i inputs ih =>
    have does := step_does l store i
    exact ih _ _ (does.sane hsane) (does.brokenDown hsane h)

/-- a loop whose runs all return breaks down exactly when a slot is not found -/
theorem brokenDown_iff (hsane : l.Sane) (h : l.runner.phase ≠ .brokenDown) {inputs : List LoopInput}
    (hreturn : ∀ i ∈ inputs, ¬i.IsBreakdown) :
    (l.replay store inputs).loop.runner.phase = .brokenDown ↔ ¬l.FindsAll store inputs := by
  induction inputs generalizing l store with
  | nil => exact iff_of_false h (not_not_intro trivial)
  | cons i inputs ih =>
    have does := step_does l store i
    have hrest := fun j hj => hreturn j (List.mem_cons_of_mem i hj)
    by_cases hlost : l.LosesSlot i
    · exact iff_of_true (brokenDown_replay _ _ (does.sane hsane) (does.lost hlost) inputs)
        fun hall => hall.1 hlost
    · have hnext := does.not_brokenDown h hlost (hreturn i List.mem_cons_self)
      have hall : l.FindsAll store (i :: inputs) ↔
          (l.step store i).loop.FindsAll (l.step store i).store inputs :=
        and_iff_right hlost
      rw [hall]
      exact ih _ _ (does.sane hsane) hnext hrest

theorem FindsAll.of_prefix {xs ys : List LoopInput} (h : l.FindsAll store ys) (hxy : xs <+: ys) :
    l.FindsAll store xs := by
  induction xs generalizing l store ys with
  | nil => trivial
  | cons i xs ih =>
    obtain ⟨zs, rfl⟩ := hxy
    exact ⟨h.1, ih _ _ h.2 ⟨zs, rfl⟩⟩

end

/-! ## after the order to stop -/

section
variable {l l' : Loop} {store store' : Option StateStore} {i : LoopInput} {new : List RunnerEvent}
  {done : Option Run}

theorem Does.calls_of_whole {r r' : Runner} {j : RunnerInput} (hi : i.whole? = some j)
    (does : r.Does store j r' store' new done) : new.filterMap RunnerEvent.call? = [] := by
  cases does with
  | call => cases i <;> exact nomatch hi
  | _ => rfl

theorem Does.quiet (does : l.Does store i l' store' new done) (hstop : l.runner.stopping = true)
    (hstage : l.stage = .outside) :
    l'.runner.stopping = true ∧ l'.stage = .outside ∧ new.filterMap RunnerEvent.call? = [] := by
  cases does with
  | whole hi does => exact ⟨does.stopping hstop, hstage, calls_of_whole hi does⟩
  | nothing => exact ⟨hstop, hstage, rfl⟩
  | advance h =>
    cases h with
    | unstopped _ _ h => exact nomatch hstop.symm.trans h
    | early h => exact nomatch hstage.symm.trans h
    | due h => exact nomatch hstage.symm.trans h
  | leave => exact ⟨hstop, rfl, rfl⟩
  | call h => exact nomatch hstage.symm.trans h

theorem quiet_replay (store : Option StateStore) (hstop : l.runner.stopping = true)
    (hstage : l.stage = .outside) (inputs : List LoopInput) :
    (l.replay store inputs).loop.runner.stopping = true ∧
      (l.replay store inputs).loop.stage = .outside ∧
      (l.replay store inputs).events.filterMap RunnerEvent.call? = [] := by
  induction inputs generalizing l store with
  | nil => exact ⟨hstop, hstage, rfl⟩
  | cons i inputs ih =>
    obtain ⟨hstop', hstage', hnew⟩ := (step_does l store i).quiet hstop hstage
    rw [RunnerEvent.filterMap_deeds fun _ => rfl] at hnew
    obtain ⟨hend, hout, hrest⟩ := ih _ hstop' hstage'
    refine ⟨hend, hout, ?_⟩
    show ((l.step store i).events ++ _).filterMap _ = _
    rw [List.filterMap_append, hnew]
    exact hrest

inductive Goes (l : Loop) (i : LoopInput) (l' : Loop) (new : List RunnerEvent) : Prop
  | stays (hstage : l'.stage = l.stage) (hslot : l'.runner.slot = l.runner.slot)
      (hnew : new.filterMap RunnerEvent.call? = []) (hi : l.stage = .unstopped → i.reading? = none)
  | reads {now} (hi : i = .read now) (hstage : l.stage = .unstopped)
      (h : l' = { l with stage := if l.runner.slot.isAfter now then .outside else .due })
      (hnew : new.filterMap RunnerEvent.call? = [])
  | runs (hstage : l.stage = .due) (hout : l'.stage = .outside)
      (hnew : (new.filterMap RunnerEvent.call?).length = 1)

theorem Does.goes (does : l.Does store i l' store' new done) (hsane : l.Sane)
    (hlooks : l.stage ≠ .outside) : l.Goes i l' new := by
  have hphase := hsane.waiting hlooks
  cases does with
  | whole hi does =>
    refine .stays rfl ?_ (calls_of_whole hi does) fun _ => by cases i <;> first | rfl | exact nomatch hi
    cases does with
    | nothing => rfl
    | obey => rfl
    | plan h => exact nomatch hphase.symm.trans h
    | lose h => exact nomatch hphase.symm.trans h
    | leave => rfl
    | call => rfl
    | collapse h => exact nomatch hphase.symm.trans h
    | strand h => exact nomatch hphase.symm.trans h
    | goOn h => exact nomatch hphase.symm.trans h
  | nothing h =>
    refine .stays rfl rfl rfl fun hstage => ?_
    cases i with
    | read => exact absurd hstage h
    | _ => rfl
  | advance h =>
    cases h with
    | unstopped _ h => exact absurd h hlooks
    | early hstage hearly => exact .reads rfl hstage (by rw [hearly]; rfl) rfl
    | due hstage hdue => exact .reads rfl hstage (by rw [hdue]; rfl) rfl
  | leave _ h => exact absurd h hlooks
  | call hstage => exact .runs hstage rfl rfl

/-- after the order to stop one run starts at the most, and only one to which the loop was committed;
before its end the loop does start that one -/
structure Late (l : Loop) (store : Option StateStore) (inputs : List LoopInput) : Prop where
  atMostOne : ((l.replay store inputs).events.filterMap RunnerEvent.call?).length ≤ 1
  committed : (l.replay store inputs).events.filterMap RunnerEvent.call? ≠ [] → l.Committed inputs
  starts : l.Committed inputs → (l.replay store inputs).loop.runner.IsOver →
    (l.replay store inputs).events.filterMap RunnerEvent.call? ≠ []

theorem not_committed_of_outside (hstage : l.stage = .outside) (inputs : List LoopInput) :
    ¬l.Committed inputs := by
  rintro (h | ⟨h, -⟩)
  · exact nomatch hstage.symm.trans h
  · exact nomatch hstage.symm.trans h

theorem Late.of_outside (store : Option StateStore) (hstop : l.runner.stopping = true)
    (hstage : l.stage = .outside) (inputs : List LoopInput) : l.Late store inputs := by
  have hquiet := (quiet_replay store hstop hstage inputs).2.2
  exact ⟨by rw [hquiet]; exact Nat.zero_le 1, fun h => absurd hquiet h,
    fun h => absurd h (not_committed_of_outside hstage inputs)⟩

theorem committed_cons (hstage : l'.stage = l.stage) (hslot : l'.runner.slot = l.runner.slot)
    (hi : l.stage = .unstopped → i.reading? = none) (inputs : List LoopInput) :
    l'.Committed inputs ↔ l.Committed (i :: inputs) := by
  unfold Committed
  rw [hstage, hslot]
  refine or_congr_right (and_congr_right fun h => ?_)
  rw [List.findSome?_cons, hi h]

theorem committed_read (hstage : l.stage = .unstopped) (now : Moment) (inputs : List LoopInput) :
    l.Committed (.read now :: inputs) ↔ l.runner.slot.isAfter now = false := by
  have hfirst : (LoopInput.read now :: inputs).findSome? LoopInput.reading? = some now := rfl
  unfold Committed
  rw [hfirst]
  simp [hstage]

theorem Late.cons (hnew : (l.step store i).events.filterMap RunnerEvent.call? = [])
    {inputs : List LoopInput}
    (hiff : (l.step store i).loop.Committed inputs ↔ l.Committed (i :: inputs))
    (h : (l.step store i).loop.Late (l.step store i).store inputs) : l.Late store (i :: inputs) := by
  have hcalls : (l.replay store (i :: inputs)).events.filterMap RunnerEvent.call? =
      ((l.step store i).loop.replay (l.step store i).store inputs).events.filterMap
        RunnerEvent.call? := by
    show ((l.step store i).events ++ _).filterMap _ = _
    rw [List.filterMap_append, hnew, List.nil_append]
  obtain ⟨h1, h2, h3⟩ := h
  rw [← hcalls] at h1 h2 h3
  exact ⟨h1, fun h => hiff.1 (h2 h), fun h => h3 (hiff.2 h)⟩

theorem late (hsane : l.Sane) (store : Option StateStore) (hstop : l.runner.stopping = true)
    (inputs : List LoopInput) : l.Late store inputs := by
  induction inputs generalizing l store with
  | nil =>
    refine ⟨Nat.zero_le 1, fun h => absurd rfl h, fun hcommitted hover => ?_⟩
    have hphase := hsane.waiting fun h => not_committed_of_outside h [] hcommitted
    rcases hover with h | h
    · exact nomatch hphase.symm.trans h
    · exact nomatch hphase.symm.trans h
  | cons i inputs ih =>
    by_cases hlooks : l.stage = .outside
    · exact .of_outside store hstop hlooks _
    have does := step_does l store i
    have hstop' := (does.effect hsane).stopping hstop
    have hrest := ih (does.sane hsane) (l.step store i).store hstop'
    have hgoes := does.goes hsane hlooks
    cases hgoes with
    | stays hstage hslot hnew hi =>
      rw [RunnerEvent.filterMap_deeds fun _ => rfl] at hnew
      exact .cons hnew (committed_cons hstage hslot hi inputs) hrest
    | @reads now hi hstage h hnew =>
      rw [RunnerEvent.filterMap_deeds fun _ => rfl] at hnew
      refine .cons hnew ?_ hrest
      rw [hi, committed_read hstage, ← hi, h]
      cases l.runner.slot.isAfter now with
      | true => exact iff_of_false (not_committed_of_outside rfl inputs) nofun
      | false => exact iff_of_true (.inl rfl) rfl
    | runs hstage hout hnew =>
      -- the run that the loop was committed to; from there on it is quiet
      rw [RunnerEvent.filterMap_deeds fun _ => rfl] at hnew
      have hquiet := (quiet_replay (l.step store i).store hstop' hout inputs).2.2
      have hcalls : ((l.replay store (i :: inputs)).events.filterMap RunnerEvent.call?).length = 1 := by
        show (((l.step store i).events ++ _).filterMap _).length = _
        rw [List.filterMap_append, hquiet, List.append_nil, hnew]
      exact ⟨hcalls.le, fun _ => .inl hstage, fun _ _ h => by rw [h] at hcalls; cases hcalls⟩

end

end Loop

/-! ## the end -/

namespace Runner

section
variable {r r' : Runner} {store store' : Option StateStore} {new : List RunnerEvent}
  {done : Option Run}

theorem Does.started {now : Moment} {saved : Except StateFault (Option SavedState)}
    (does : r.Does store (.begin now saved) r' store' new done) : r'.phase ≠ .fresh := by
  cases does with
  | nothing h => exact h
  | plan => exact nofun
  | lose => exact nofun

theorem Does.ended {now : Moment} {ms : Nat} {ending : RunEnd}
    (does : r.Does store (.finish now ms ending) r' store' new done) (h : r.phase ≠ .fresh) :
    r'.phase ≠ .fresh ∧ ∀ m, r'.phase ≠ .running m := by
  cases does with
  | nothing hidle => exact ⟨h, hidle⟩
  | _ => exact ⟨nofun, fun _ => nofun⟩

end

end Runner

namespace Loop

section
variable {l : Loop} {store : Option StateStore}

theorem step_stopping (hsane : l.Sane) (hstop : l.runner.stopping = true)
    (store : Option StateStore) (i : LoopInput) :
    (l.step store i).loop.Sane ∧ (l.step store i).loop.runner.stopping = true := by
  have does := step_does l store i
  exact ⟨does.sane hsane, (does.effect hsane).stopping hstop⟩

theorem stopping_replay (hsane : l.Sane) (store : Option StateStore)
    (hstop : l.runner.stopping = true) (inputs : List LoopInput) :
    (l.replay store inputs).loop.runner.stopping = true := by
  induction inputs generalizing l store with
  | nil => exact hstop
  | cons i inputs ih =>
    have hstep := step_stopping hsane hstop store i
    exact ih hstep.1 _ hstep.2

theorem read_cases (l : Loop) (store : Option StateStore) (now : Moment) :
    (l.read store now).loop.runner = l.runner ∧ (l.read store now).loop.stage ≠ .unstopped := by
  unfold Loop.read
  split
  case h_1 =>
    refine ⟨rfl, ?_⟩
    dsimp only
    split <;> exact nofun
  case h_2 h => exact ⟨rfl, h⟩

theorem start_cases (hfresh : l.runner.phase ≠ .fresh) (hstage : l.stage ≠ .unstopped)
    (store : Option StateStore) (now : Moment) :
    (l.start store now).loop.runner.phase ≠ .fresh ∧ (l.start store now).loop.stage = .outside := by
  unfold Loop.start
  split
  case h_1 => exact ⟨nofun, rfl⟩
  case h_2 hdue =>
    refine ⟨hfresh, ?_⟩
    cases h : l.stage with
    | outside => rfl
    | unstopped => exact absurd h hstage
    | due => exact absurd h hdue

theorem isOver_check (hfresh : l.runner.phase ≠ .fresh) (hidle : ∀ m, l.runner.phase ≠ .running m)
    (hstage : l.stage = .outside) (hstop : l.runner.stopping = true) :
    (l.check store).loop.runner.IsOver := by
  unfold Loop.check
  cases hphase : l.runner.phase with
  | fresh => exact absurd hphase hfresh
  | running m => exact absurd hphase (hidle m)
  | waiting =>
    simp only [hstage, hstop, if_true]
    exact .inl rfl
  | stopped => exact .inl hphase
  | brokenDown => exact .inr hphase

/-- a loop that was told to stop is over once it has started, a look under way and the run that it may
lead to have ended, and it has checked for the order -/
theorem isOver_of_check (hsane : l.Sane) (hstop : l.runner.stopping = true)
    (store : Option StateStore) (now₁ now₂ now₃ now₄ : Moment)
    (saved : Except StateFault (Option SavedState)) (ms : Nat) (ending : RunEnd) :
    (l.replay store [.begin now₁ saved, .read now₂, .start now₃, .finish now₄ ms ending,
      .check]).loop.runner.IsOver := by
  let t₁ := l.step store (.begin now₁ saved)
  let t₂ := t₁.loop.step t₁.store (.read now₂)
  let t₃ := t₂.loop.step t₂.store (.start now₃)
  let t₄ := t₃.loop.step t₃.store (.finish now₄ ms ending)
  show (t₄.loop.check t₄.store).loop.runner.IsOver
  have hbegun : t₁.loop.runner.phase ≠ .fresh :=
    (Runner.begin_does l.runner store now₁ saved).started
  obtain ⟨hsame, hread⟩ := read_cases t₁.loop t₁.store now₂
  obtain ⟨hfresh, hstage⟩ :=
    start_cases (l := t₂.loop) (hsame ▸ hbegun) hread t₂.store now₃
  -- whatever the loop was doing before, by now no run is under way
  obtain ⟨hfresh, hidle⟩ :=
    (Runner.finish_does t₃.loop.runner t₃.store now₄ ms ending).ended hfresh
  have h₁ := step_stopping hsane hstop store (.begin now₁ saved)
  have h₂ := step_stopping h₁.1 h₁.2 t₁.store (.read now₂)
  have h₃ := step_stopping h₂.1 h₂.2 t₂.store (.start now₃)
  have h₄ := step_stopping h₃.1 h₃.2 t₃.store (.finish now₄ ms ending)
  exact isOver_check hfresh hidle hstage h₄.2

end

end Loop

/-! ## the whole life -/

namespace Runner

section
variable {r : Runner} {seen : List RunnerEvent} {runs published : List Run}

theorem Stands.running_iff (h : r.Stands seen runs published) (hphase : r.phase ≠ .brokenDown) :
    r.status.state = .running ↔ AtWork seen := by
  cases h with
  | idle _ hstate =>
    rw [hstate, ← List.append_nil (runs.flatMap _), atWork_stages]
    exact iff_of_false nofun nofun
  | running _ hstate =>
    rw [hstate, atWork_stages]
    exact iff_of_true rfl rfl
  | stopped _ hstate =>
    rw [hstate, atWork_stages]
    exact iff_of_false nofun nofun
  | lost h => exact absurd h hphase
  | collapsed h => exact absurd h hphase
  | stranded h => exact absurd h hphase

theorem Stands.dismissed_notMem (h : r.Stands seen runs published) (hphase : r.phase = .brokenDown) :
    .dismissed ∉ seen := by
  cases h with
  | lost =>
    rw [← List.append_nil (runs.flatMap _)]
    exact dismissed_notMem_stages runs nofun
  | collapsed => exact dismissed_notMem_stages runs (by simp [Run.opening])
  | stranded => exact dismissed_notMem_stages published (by simp [Run.work, Run.opening])
  | idle h => rw [hphase] at h; simp at h
  | running h => cases h.symm.trans hphase
  | stopped h => cases h.symm.trans hphase

end

section
variable {r : Runner} {i : RunnerInput}

theorem not_losesSlot_utc (hc : r.schedule.cadence.Accepted) (hz : r.clock = .fixed 0) :
    ¬r.LosesSlot i := by
  intro h
  cases h with
  | @first now saved e _ _ h =>
    obtain ⟨q, hq⟩ := hc.next_utc_isOk now
    rw [← hz] at hq
    obtain ⟨slot, hslot⟩ := firstSlot_isOk hq saved
    exact nomatch h.symm.trans hslot
  | @next now ms started result e _ h =>
    obtain ⟨q, hq⟩ := hc.nextAfter_utc_isOk ⟨r.slot.moment, started, r.trigger⟩ now
    rw [slotAfter, hz] at h
    exact nomatch h.symm.trans hq

end

end Runner

namespace Loop

section
variable {z : ZoneClock} {name : String} {s : Schedule} {store : Option StateStore}
  {inputs before after : List LoopInput}

theorem sane_freshIn (z : ZoneClock) (name : String) (s : Schedule) : (freshIn z name s).Sane :=
  .inl rfl

theorem Orderly.of_findsAll (hreturn : ∀ i ∈ inputs, ¬i.IsBreakdown)
    (hover : ((freshIn z name s).replay store inputs).loop.runner.IsOver)
    (hall : (freshIn z name s).FindsAll store inputs) : (freshIn z name s).Orderly store inputs := by
  have hsound {sofar : List LoopInput} (hpre : sofar <+: inputs) :
      ((freshIn z name s).replay store sofar).loop.runner.phase ≠ .brokenDown := by
    have hiff := brokenDown_iff (freshIn z name s) store (sane_freshIn z name s) nofun
      fun i hi => hreturn i (hpre.subset hi)
    exact fun h => hiff.1 h (hall.of_prefix _ _ hpre)
  obtain ⟨published, hstands, hstats, -⟩ := books z name s store inputs
  have hphase := hover.resolve_right (hsound (List.prefix_refl _))
  obtain ⟨hstages, -, -⟩ := hstands.of_stopped hphase
  refine ⟨hstages, ?_, fun sofar hpre => ?_, ?_, hstats⟩
  · rw [← RunnerEvent.states_filter, hstages, List.filterMap_append, Run.states_stages]
    rfl
  · obtain ⟨_, hstands, -⟩ := books z name s store sofar
    rw [hstands.running_iff (hsound hpre)]
    unfold AtWork
    rw [RunnerEvent.calls_filter, RunnerEvent.results_filter]
  · rw [← RunnerEvent.calls_filter, hstages, List.filterMap_append, Run.calls_stages]
    exact (List.append_nil _).symm

theorem Orderly.findsAll (hreturn : ∀ i ∈ inputs, ¬i.IsBreakdown)
    (h : (freshIn z name s).Orderly store inputs) : (freshIn z name s).FindsAll store inputs := by
  by_contra hlost
  have hphase :=
    (brokenDown_iff (freshIn z name s) store (sane_freshIn z name s) nofun hreturn).2 hlost
  obtain ⟨_, hstands, -⟩ := books z name s store inputs
  apply hstands.dismissed_notMem hphase
  rw [h.stages]
  simp

theorem late_replay (z : ZoneClock) (name : String) (s : Schedule) (store : Option StateStore)
    (before after : List LoopInput) :
    let l := ((freshIn z name s).replay store before).loop
    ({ l with runner := l.runner.stop } : Loop).Late ((freshIn z name s).replay store before).store
      after := by
  intro l
  have hsane : Sane { l with runner := l.runner.stop } :=
    Sane.replay store before (sane_freshIn z name s)
  exact late hsane _ rfl after

end

/-! ## UTC -/

section
variable {l : Loop}

theorem findsAll_utc (hc : l.runner.schedule.cadence.Accepted) (hz : l.runner.clock = .fixed 0)
    (hsane : l.Sane) (store : Option StateStore) (inputs : List LoopInput) :
    l.FindsAll store inputs := by
  induction inputs generalizing l store with
  | nil => trivial
  | cons i inputs ih =>
    have does := step_does l store i
    have effect := does.effect hsane
    refine ⟨fun ⟨j, _, hlost⟩ => Runner.not_losesSlot_utc hc hz hlost, ih ?_ ?_ (does.sane hsane) _⟩
    · rwa [effect.schedule]
    · exact effect.clock.trans hz

end

end Loop

/-! ## the law -/

/-- A loop that was told to stop comes to its end, whatever its clock shows, as soon as it has ended its
look at the clock, if it is looking, and the run under way, if there is one.  After the order one run
starts at the most, and only one to which the loop was committed when it was told: it had checked for the
order already, and its slot was due.  Its life is orderly exactly when every slot that it looks for is
found: runs follow each other without overlap, each of them ends and is counted, and the module is told
once, behind the last one.  And it is as it should be exactly when, besides, the loop was not committed to
a run when it was told.  In UTC every slot is found. -/
theorem lifeCycle_iff {config : ScheduleConfig} {defaults : ScheduleDefaults} {s : Normalized}
    (h : config.normalize defaults = .ok s) (z : ZoneClock) (name : String)
    (store : Option StateStore) (before after : List LoopInput)
    (hreturn : ∀ i ∈ before ++ .stop :: after, ¬i.IsBreakdown) :
    let l := Loop.freshIn z name s.schedule
    (∀ now₁ saved now₂ now₃ now₄ ms result, (l.replay store (before ++ .stop :: after ++
        [.begin now₁ saved, .read now₂, .start now₃, .finish now₄ ms (.returned result),
          .check])).loop.runner.IsOver) ∧
      ((l.lateCalls store before after).length ≤ 1 ∧
        (l.lateCalls store before after ≠ [] → (l.replay store before).loop.Committed after)) ∧
      ((l.replay store (before ++ .stop :: after)).loop.runner.IsOver →
        (l.Orderly store (before ++ .stop :: after) ↔ l.FindsAll store (before ++ .stop :: after)) ∧
          (l.LifeCycle store before after ↔ l.FindsAll store (before ++ .stop :: after) ∧
            ¬(l.replay store before).loop.Committed after)) ∧
      (z = .fixed 0 → l.FindsAll store (before ++ .stop :: after)) := by
  intro l
  have hc := ScheduleConfig.accepted_of_normalize h
  have hsane := Loop.sane_freshIn z name s.schedule
  have hlate := Loop.late_replay z name s.schedule store before after
  have hreplay : (l.replay store (before ++ .stop :: after)).loop =
      ((l.replay store before).loop.replay (l.replay store before).store (.stop :: after)).loop := by
    rw [Loop.replay_append]
  refine ⟨fun now₁ saved now₂ now₃ now₄ ms result => ?_, ⟨hlate.atMostOne, hlate.committed⟩,
    fun hover => ?_, fun hz => Loop.findsAll_utc hc hz hsane store _⟩
  · rw [Loop.replay_append]
    refine Loop.isOver_of_check (hsane.replay store _) ?_ _ now₁ now₂ now₃ now₄ saved ms _
    rw [hreplay]
    have hstopped : Loop.Sane { (l.replay store before).loop with
        runner := (l.replay store before).loop.runner.stop } := hsane.replay store before
    exact Loop.stopping_replay hstopped _ rfl after
  · have horderly : l.Orderly store (before ++ .stop :: after) ↔
        l.FindsAll store (before ++ .stop :: after) :=
      ⟨Loop.Orderly.findsAll hreturn, Loop.Orderly.of_findsAll hreturn hover⟩
    refine ⟨horderly, fun hlife => ⟨horderly.1 hlife.toOrderly, fun hcommitted => ?_⟩,
      fun ⟨hall, hfree⟩ => ⟨horderly.2 hall, ?_⟩⟩
    · rw [hreplay] at hover
      exact hlate.starts hcommitted hover hlife.quiet
    · by_contra hcalls
      exact hfree (hlate.committed hcalls)

end

open ZoneTable

/-- a daily module is told to stop during its run of the morning; the run is the only one, and the life
of the loop is as it should be -/
theorem lifeCycle_iff_daily :
    ∃ (config : ScheduleConfig) (defaults : ScheduleDefaults) (s : Normalized)
      (before after : List LoopInput),
      config.normalize defaults = .ok s ∧ (∀ i ∈ before ++ .stop :: after, ¬i.IsBreakdown) ∧
        ((Loop.freshIn (.fixed 0) "daily" s.schedule).runs none
          (before ++ .stop :: after)).length = 1 ∧
        (Loop.freshIn (.fixed 0) "daily" s.schedule).LifeCycle none before after := by
  have h : ScheduleConfig.normalize { time := some "05:30" } ⟨86400, .host⟩
      = .ok ⟨⟨.dailyTime ⟨5, 30⟩ 86400, false, .host⟩, []⟩ := by decide +kernel
  let before : List LoopInput :=
    [.begin ⟨1704067200000000000, by decide, by decide⟩ (.ok none), .check,
      .read ⟨1704087000000000000, by decide, by decide⟩,
      .start ⟨1704087000000001000, by decide, by decide⟩]
  let after : List LoopInput :=
    [.finish ⟨1704087002000000000, by decide, by decide⟩ 2000 (.returned (.ok ())), .check]
  have hreturn : ∀ i ∈ before ++ .stop :: after, ¬i.IsBreakdown := by
    simp [before, after, LoopInput.IsBreakdown]
  obtain ⟨-, -, hlife, hall⟩ := lifeCycle_iff h (.fixed 0) "daily" none before after hreturn
  have hfree : ¬((Loop.freshIn (.fixed 0) "daily"
      ⟨.dailyTime ⟨5, 30⟩ 86400, false, .host⟩).replay none before).loop.Committed after :=
    Loop.not_committed_of_outside (by decide +kernel) after
  exact ⟨_, _, _, before, after, h, hreturn, by decide +kernel,
    (hlife (.inl (by decide +kernel))).2.2 ⟨hall rfl, hfree⟩⟩

/-- a daily module in Tokyo starts when the wall clock there has left the calendar; it breaks down, and
is not told that its loop is over -/
theorem not_lifeCycle :
    ∃ (config : ScheduleConfig) (defaults : ScheduleDefaults) (s : Normalized)
      (before after : List LoopInput),
      config.normalize defaults = .ok s ∧ (∀ i ∈ before ++ .stop :: after, ¬i.IsBreakdown) ∧
        ((Loop.freshIn s.schedule.zone.clock "beat" s.schedule).replay none
          (before ++ .stop :: after)).loop.runner.IsOver ∧
        ¬(Loop.freshIn s.schedule.zone.clock "beat" s.schedule).LifeCycle none before after := by
  have h : ScheduleConfig.normalize { time := some "05:30", timezone := some "Asia/Tokyo" }
      ⟨86400, .host⟩ = .ok ⟨⟨.dailyTime ⟨5, 30⟩ 86400, false, .named .asiaTokyo⟩, []⟩ := by
    decide +kernel
  let before : List LoopInput :=
    [.begin ⟨8210266862400000000000, by decide, by decide⟩ (.ok none)]
  let after : List LoopInput := [.check]
  refine ⟨_, _, _, before, after, h, by simp [before, after, LoopInput.IsBreakdown],
    .inr (by decide +kernel), fun hlife => ?_⟩
  have hlength := congrArg List.length hlife.stages
  rw [List.length_append, show List.length _ = 0 from by decide +kernel] at hlength
  cases hlength

end Rota
