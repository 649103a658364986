import Rota.Proofs.Agent.Crew

/-!
# What a task can do in its turn

A task in a session is a module with its loop.  Its turn is read here once, phase by phase, and set
beside the moves of a crew.

* `Task.Sane`      the runs that were started fit the runs that were counted, and a report is to be
                   sent only in a run that has one;
* `Task.member`    the task as a member of a crew;
* `Task.Takes`     what a task does in a turn, and `Task.turn_takes` that it does;
* `Task.Takes.course`   the moves of the crew that go with it.
-/

namespace Rota

variable [ZoneDatabase]

/-! ## looks at the clock -/

namespace Runner

variable {r : Runner} {store : Option StateStore} {now : Moment}

theorem look_of_stopping (hphase : r.phase = .waiting) (hstop : r.stopping = true) :
    r.look store now = ⟨r.leaving, store, [.dismissed, .entered .stopped]⟩ := by
  rw [look_eq, if_pos hphase, if_pos hstop]
  rfl

theorem look_of_due (hphase : r.phase = .waiting) (hstop : r.stopping = false)
    (hdue : r.slot.isAfter now = false) :
    r.look store now = ⟨r.calling now, store, [.entered .running, .called r.slot now r.trigger]⟩ := by
  simp only [look_eq, hphase, hstop, hdue]
  rfl

theorem look_of_early (hphase : r.phase = .waiting) (hstop : r.stopping = false)
    (hearly : r.slot.isAfter now = true) : r.look store now = ⟨r, store, []⟩ := by
  simp only [look_eq, hphase, hstop, hearly]
  rfl

variable {r' : Runner} {store' : Option StateStore} {deeds : List RunnerEvent} {done : Option Run}

theorem Does.begun {saved : Except StateFault (Option SavedState)}
    (does : r.Does store (.begin now saved) r' store' deeds done) (hphase : r.phase = .fresh) :
    (r'.phase = .brokenDown ∨ r'.phase = .waiting) ∧ r'.stats = r.stats := by
  cases does with
  | nothing h => exact absurd hphase h
  | plan => exact ⟨.inr rfl, rfl⟩
  | lose => exact ⟨.inl rfl, rfl⟩

theorem Does.finished {ms : Nat} {ending : RunEnd}
    (does : r.Does store (.finish now ms ending) r' store' deeds done) {started : Moment}
    (hphase : r.phase = .running started) :
    r'.phase = .brokenDown ∨ r'.phase = .waiting ∧ r'.stats.runs = r.stats.runs + 1 := by
  cases does with
  | nothing h => exact absurd hphase (h started)
  | collapse => exact .inl rfl
  | strand => exact .inl rfl
  | goOn => exact .inr ⟨rfl, rfl⟩

end Runner

namespace Task

variable {t t' : Task} {next : Next}

/-- the books of a task are in order -/
structure Sane (t : Task) : Prop where
  idle : t.runner.phase = .fresh ∨ t.runner.phase = .waiting → t.runs = t.runner.stats.runs
  atWork : ∀ started, t.runner.phase = .running started → t.runs = t.runner.stats.runs + 1
  sends : t.isSending = true →
    (∃ started, t.runner.phase = .running started) ∧ ∃ r, t.plan.report? = some r

/-- the report that a task is about to send -/
def report? (t : Task) : Option Report := if t.isSending then t.plan.report? else none

def idler (t : Task) : Member where
  runner := t.runner
  conduct := t.behaviour.conduct

def member (t : Task) : Member := { t.idler with sending := t.report? }

def calling (t : Task) (now : Moment) (since : Nat) : Task :=
  { t with runner := t.runner.calling now, runs := t.runs + 1, since }

def sending (t : Task) : Task := { t with isSending := true }

def ended (t : Task) (store : Option StateStore) (now : Moment) (ms : Nat) (ending : RunEnd) : Task :=
  { t with runner := (t.runner.finish store now ms ending).runner, isSending := false }

/-- what a task does in its turn when the clock reads `now`, and how it goes on -/
inductive Takes (now : Moment) (t : Task) : Task → Next → Prop
  | begun (hphase : t.runner.phase = .fresh) (store : Option StateStore) :
    Takes now t { t with runner := (t.runner.begin store now t.saved).runner } .again
  | waits (hphase : t.runner.phase = .waiting) (hstop : t.runner.stopping = false) (ms : Nat) :
    Takes now t t (.sleep ms)
  | leaves (hphase : t.runner.phase = .waiting) (hstop : t.runner.stopping = true) :
    Takes now t { t with runner := t.runner.leaving } .over
  | works (hphase : t.runner.phase = .waiting) (hstop : t.runner.stopping = false)
      (hdue : t.runner.slot.isAfter now = false) (since : Nat) {next : Next}
      (hnext : next = .again ∨ ∃ ms, next = .sleep ms) :
    Takes now t (t.calling now since) next
  | reports {started : Moment} (hphase : t.runner.phase = .running started) {r : Report}
      (hplan : t.plan.report? = some r) :
    Takes now t t.sending (.send r)
  | ends {started : Moment} (hphase : t.runner.phase = .running started)
      (hplan : t.plan.report? = none) (store : Option StateStore) (ms : Nat) :
    Takes now t (t.ended store now ms t.plan.ending) .again
  | rests (h : t.runner.IsOver) : Takes now t t .over

theorem turn_takes (t : Task) (wake : Nat) (clock : SimClock) (store : Option StateStore) :
    t.Takes clock.now (t.turn wake clock store).task (t.turn wake clock store).next := by
  unfold turn
  cases hphase : t.runner.phase with
  | fresh => exact .begun hphase store
  | running started =>
    dsimp only
    unfold goOn
    cases hplan : t.plan.report? with
    | none => exact .ends hphase hplan store (clock.elapsed - t.since)
    | some r => exact .reports hphase hplan
  | stopped => exact .rests (.inl hphase)
  | brokenDown => exact .rests (.inr hphase)
  | waiting =>
    cases hstop : t.runner.stopping with
    | true =>
      rw [Runner.look_of_stopping hphase hstop]
      exact .leaves hphase hstop
    | false =>
      cases hdue : t.runner.slot.isAfter clock.now with
      | true =>
        rw [Runner.look_of_early hphase hstop hdue]
        dsimp only
        rw [hphase]
        exact .waits hphase hstop _
      | false =>
        rw [Runner.look_of_due hphase hstop hdue]
        refine .works hphase hstop hdue clock.elapsed ?_
        by_cases h : (t.behaviour t.runs).ms = 0
        · exact .inl (if_pos h)
        · exact .inr ⟨_, if_neg h⟩

/-! ## the books -/

theorem member_of_silent (h : t.isSending = false) : t.member = t.idler := by
  rw [member, report?, if_neg (by simp [h])]
  rfl

theorem report?_of_plan (h : t.isSending = true) {r : Report} (hplan : t.plan.report? = some r) :
    t.report? = some r :=
  (if_pos h).trans hplan

theorem Sane.of_resting (hrest : ∀ started, t.runner.phase ≠ .running started)
    (hsilent : t.isSending = false)
    (hruns : t.runner.phase = .fresh ∨ t.runner.phase = .waiting → t.runs = t.runner.stats.runs) :
    t.Sane where
  idle := hruns
  atWork started h := absurd h (hrest started)
  sends h := nomatch hsilent.symm.trans h

theorem Sane.of_running {started : Moment} (hphase : t.runner.phase = .running started)
    (hruns : t.runs = t.runner.stats.runs + 1)
    (hsends : t.isSending = true → ∃ r, t.plan.report? = some r) : t.Sane where
  idle h := h.elim (fun h => nomatch h.symm.trans hphase) fun h => nomatch h.symm.trans hphase
  atWork _ _ := hruns
  sends h := ⟨⟨started, hphase⟩, hsends h⟩

theorem Sane.fresh (name : String) (schedule : Schedule) (behaviour : Behaviour)
    (store : Option StateStore) : (Task.fresh name schedule behaviour store).Sane :=
  .of_resting (fun _ => nofun) rfl fun _ => rfl

theorem Sane.silent (hs : t.Sane) (hrest : ∀ started, t.runner.phase ≠ .running started) :
    t.isSending = false := by
  by_contra hsending
  obtain ⟨⟨started, hphase⟩, -⟩ := hs.sends (Bool.eq_true_of_not_eq_false hsending)
  exact hrest started hphase

theorem Sane.plan_eq (hs : t.Sane) {started : Moment} (hphase : t.runner.phase = .running started) :
    t.plan = t.behaviour t.runner.stats.runs := by
  rw [plan, hs.atWork started hphase, Nat.add_sub_cancel]

theorem Sane.report (hs : t.Sane) (hsending : t.isSending = true) :
    ∃ started r, t.runner.phase = .running started ∧ t.plan.report? = some r ∧ t.report? = some r := by
  obtain ⟨⟨started, hphase⟩, r, hplan⟩ := hs.sends hsending
  exact ⟨started, r, hphase, hplan, report?_of_plan hsending hplan⟩

theorem Sane.isSending_iff (hs : t.Sane) : t.isSending = true ↔ t.report? ≠ none := by
  constructor
  · intro h
    obtain ⟨-, r, -, -, hr⟩ := hs.report h
    rw [hr]
    exact Option.some_ne_none r
  · intro h
    by_contra hsilent
    exact h (if_neg hsilent)

theorem Sane.ended (hs : t.Sane) {started : Moment} (hphase : t.runner.phase = .running started)
    (store : Option StateStore) (now : Moment) (ms : Nat) (ending : RunEnd) :
    (t.ended store now ms ending).Sane := by
  rcases (t.runner.finish_does store now ms ending).finished hphase with h | ⟨h, hruns⟩
  · exact .of_resting (fun _ h' => nomatch h.symm.trans h') rfl fun hidle =>
      hidle.elim (fun h' => nomatch h.symm.trans h') fun h' => nomatch h.symm.trans h'
  · exact .of_resting (fun _ h' => nomatch h.symm.trans h') rfl fun _ =>
      (hs.atWork started hphase).trans hruns.symm

namespace Takes

variable {now : Moment}

theorem keeps (h : t.Takes now t' next) : t'.runner.schedule = t.runner.schedule ∧
    (t.runner.stopping = true → t'.runner.stopping = true) := by
  cases h with
  | begun hphase store =>
    have hdoes := t.runner.begin_does store now t.saved
    exact ⟨hdoes.schedule, hdoes.stopping⟩
  | ends hphase hplan store ms =>
    have hdoes := t.runner.finish_does store now ms t.plan.ending
    exact ⟨hdoes.schedule, hdoes.stopping⟩
  | _ => exact ⟨rfl, id⟩

theorem sane (h : t.Takes now t' next) (hs : t.Sane) : t'.Sane := by
  cases h with
  | begun hphase store =>
    obtain ⟨hnext, hstats⟩ := (t.runner.begin_does store now t.saved).begun hphase
    have hruns : t.runs = t.runner.stats.runs := hs.idle (.inl hphase)
    have hsilent : t.isSending = false := hs.silent fun _ h => nomatch hphase.symm.trans h
    have hrest : ∀ started, (t.runner.begin store now t.saved).runner.phase ≠ .running started :=
      fun _ h => hnext.elim (fun h' => nomatch h'.symm.trans h) fun h' => nomatch h'.symm.trans h
    exact .of_resting hrest hsilent fun _ => hruns.trans (congrArg RunStatistics.runs hstats.symm)
  | waits => exact hs
  | leaves hphase =>
    have hsilent : t.isSending = false := hs.silent fun _ h => nomatch hphase.symm.trans h
    exact .of_resting (fun _ => nofun) hsilent fun h => h.elim (fun h => nomatch h) fun h => nomatch h
  | works hphase =>
    have hsilent : t.isSending = false := hs.silent fun _ h => nomatch hphase.symm.trans h
    exact .of_running rfl (congrArg (· + 1) (hs.idle (.inr hphase))) fun h =>
      nomatch hsilent.symm.trans h
  | reports hphase hplan => exact .of_running hphase (hs.atWork _ hphase) fun _ => ⟨_, hplan⟩
  | ends hphase hplan store ms => exact hs.ended hphase store now ms _
  | rests => exact hs

theorem awake (h : t.Takes now t' next) (hstop : t.runner.stopping = true) (ms : Nat) : next ≠ .sleep ms := by
  cases h with
  | waits hphase h => exact nomatch h.symm.trans hstop
  | works hphase h => exact nomatch h.symm.trans hstop
  | _ => exact nofun

/-- only a task whose run has a report to send goes on by sending one -/
theorem silent (h : t.Takes now t' next) (hsilent : t.isSending = false)
    (hnext : ∀ r, next ≠ .send r) : t'.isSending = false := by
  cases h with
  | reports => exact absurd rfl (hnext _)
  | ends => rfl
  | _ => exact hsilent

theorem sends {r : Report} (h : t.Takes now t' (.send r)) :
    t' = t.sending ∧ (∃ started, t.runner.phase = .running started) ∧
      t.plan.report? = some r := by
  cases h with
  | reports hphase hplan => exact ⟨rfl, ⟨_, hphase⟩, hplan⟩
  | works hphase hstop hdue since hnext => exact hnext.elim (fun h => nomatch h) fun ⟨_, h⟩ => nomatch h

theorem isOver (h : t.Takes now t' .over) : t'.runner.IsOver := by
  cases h with
  | leaves => exact .inl rfl
  | rests h => exact h
  | works hphase hstop hdue since hnext => exact hnext.elim (fun h => nomatch h) fun ⟨_, h⟩ => nomatch h

variable {p : Publisher} {c : Crew} {i : Nat}

theorem course (h : t.Takes now t' next) (hs : t.Sane) (hm : c.members[i]? = some t.idler) :
    c.Course p [] (c.put i t'.idler) := by
  cases h with
  | begun hphase store =>
    exact (@Crew.Move.loop _ p c i t.idler hm (.begin now t.saved) (fun _ _ _ h => nomatch h) store).course
  | waits => rw [Crew.put_self hm]; exact .start
  | rests => rw [Crew.put_self hm]; exact .start
  | reports hphase hplan =>
    change c.Course p [] (c.put i t.idler)
    rw [Crew.put_self hm]
    exact .start
  | leaves hphase hstop =>
    have hmove := @Crew.Move.loop _ p c i t.idler hm (.look Moment.last) (fun _ _ _ h => nomatch h) none
    have hlook : t.idler.runner.step none (.look Moment.last) = _ :=
      Runner.look_of_stopping hphase hstop
    rw [hlook] at hmove
    exact hmove.course
  | works hphase hstop hdue =>
    have hmove := @Crew.Move.loop _ p c i t.idler hm (.look now) (fun _ _ _ h => nomatch h) none
    have hlook : t.idler.runner.step none (.look now) = _ := Runner.look_of_due hphase hstop hdue
    rw [hlook] at hmove
    exact hmove.course
  | ends hphase hplan store ms =>
    refine (Crew.Move.finish hm hphase rfl ?_ store now ms).course
    change (t.behaviour t.runner.stats.runs).MayEnd [] t.plan.ending
    rw [← hs.plan_eq hphase]
    exact .worked hplan

end Takes

theorem Sane.course_ended (hs : t.Sane) {p : Publisher} {c : Crew} {i : Nat} {started : Moment}
    {r : Report} (hphase : t.runner.phase = .running started) (hplan : t.plan.report? = some r)
    (hm : c.members[i]? = some { t.idler with sent := [(r, true)] }) (store : Option StateStore)
    (now : Moment) (ms : Nat) :
    c.Course p [] (c.put i (t.ended store now ms (t.plan.endingAfter true)).idler) := by
  refine (Crew.Move.finish hm hphase rfl ?_ store now ms).course
  change (t.behaviour t.runner.stats.runs).MayEnd _ _
  rw [← hs.plan_eq hphase]
  exact .reported hplan true

end Task

end Rota
