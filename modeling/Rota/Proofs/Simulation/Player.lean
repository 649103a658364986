import Rota.Proofs.Agent.Delivery
import Rota.Proofs.Agent.Ensemble
import Rota.Proofs.Simulation.Task

/-!
# A task is a player

A task in a session is a module with its loop, and so is a player of an ensemble.  Each turn of a task
is made of what the player does.

* `Behaviour.callback`      a module that follows its plans, by what it has seen and done;
* `Player.Acts`             a player goes on, as often as it likes;
* `Task.PlayedBy`           a task and a player stand at the same point;
* `Task.PlayedBy.turn`      **a turn of the task takes the player along**;
* `Task.PlayedBy.answer`    so does the end of a run whose report entered.
-/

namespace Rota

open StateStore

/-! ## plans -/

def RunnerEvent.isCall : RunnerEvent → Bool
  | .called _ _ _ => true
  | _ => false

def callsIn (diary : List Happening) : Nat :=
  (diary.filterMap Happening.deed?).countP RunnerEvent.isCall

def Behaviour.callback (b : Behaviour) : Callback := fun diary =>
  let plan := b (callsIn diary - 1)
  match diary.getLast? with
  | some (.worked _) =>
    match plan.report? with
    | some r => .send r
    | none => .finish plan.ending
  | some (.sent _ entered) => .finish (plan.endingAfter entered)
  | _ => .work plan.ms

section
variable (diary new : List Happening)

theorem callsIn_append : callsIn (diary ++ new) = callsIn diary + callsIn new := by
  rw [callsIn, List.filterMap_append, List.countP_append]
  rfl

theorem callsIn_deeds (events : List RunnerEvent) :
    callsIn (events.map .deed) = events.countP RunnerEvent.isCall := by
  rw [callsIn, List.filterMap_map]
  have hsome : (Happening.deed? ∘ Happening.deed) = some := rfl
  rw [hsome, List.filterMap_some]

end

section
variable (b : Behaviour) (diary : List Happening)

theorem Behaviour.callback_worked (ms : Nat) : b.callback (diary ++ [.worked ms]) =
    match (b (callsIn diary - 1)).report? with
    | some r => .send r
    | none => .finish (b (callsIn diary - 1)).ending := by
  have hcalls : callsIn (diary ++ [.worked ms]) = callsIn diary := callsIn_append _ _
  rw [callback, List.getLast?_append, hcalls]
  rfl

theorem Behaviour.callback_sent (r : Report) (entered : Bool) :
    b.callback (diary ++ [.sent r entered]) =
      .finish ((b (callsIn diary - 1)).endingAfter entered) := by
  have hcalls : callsIn (diary ++ [.sent r entered]) = callsIn diary := callsIn_append _ _
  rw [callback, List.getLast?_append, hcalls]
  rfl

theorem Behaviour.callback_deed {e : RunnerEvent} (h : diary.getLast? = some (.deed e)) :
    b.callback diary = .work (b (callsIn diary - 1)).ms := by
  rw [callback, h]

end

variable [ZoneDatabase]

theorem Runner.between_runs {r : Runner} (h : r.phase = .brokenDown ∨ r.phase = .waiting) :
    (∀ started, r.phase ≠ .running started) ∧ r.phase ≠ .fresh := by
  rcases h with h | h <;> rw [h] <;> exact ⟨fun _ => nofun, nofun⟩

theorem Runner.Does.uncalled {r r' : Runner} {store store' : Option StateStore} {i : RunnerInput}
    {deeds : List RunnerEvent} {done : Option Run} (does : r.Does store i r' store' deeds done)
    (hi : ∀ now, i ≠ .look now) : deeds.countP RunnerEvent.isCall = 0 := by
  cases does with
  | call => exact absurd rfl (hi _)
  | _ => rfl

theorem Player.deeds_after (pl : Player) (turn : Turn) :
    (pl.after turn).deeds = pl.deeds ++ turn.events.filter RunnerEvent.isDeed := by
  rw [deeds, after, List.filterMap_append, List.filterMap_map]
  have hsome : (Happening.deed? ∘ Happening.deed) = some := rfl
  rw [hsome, List.filterMap_some]
  rfl

/-! ## players that go on -/

/-- a player goes on, as often as it likes -/
inductive Player.Acts (wake : Nat) (clock : SimClock) :
    Player → Option StateStore → Player → Option StateStore → Prop
  | refl (pl store) : Acts wake clock pl store pl store
  | step {pl store pl' store'} (hready : pl.isReady clock.elapsed = true)
      (h : Acts wake clock (pl.act wake clock store).1 (pl.act wake clock store).2 pl' store') :
    Acts wake clock pl store pl' store'

namespace Player

variable {wake : Nat} {clock : SimClock} {pl pl' : Player} {store store' : Option StateStore}

theorem act_of_work {started : Moment} {ms : Nat} (hphase : pl.runner.phase = .running started)
    (hdeal : pl.callback pl.diary = .work ms) :
    pl.act wake clock store =
      ({ pl with wait := .time (clock.elapsed + ms), diary := pl.diary ++ [.worked ms] }, store) := by
  rw [act, hphase]
  dsimp only
  rw [hdeal]

theorem act_of_send {started : Moment} {r : Report} (hphase : pl.runner.phase = .running started)
    (hdeal : pl.callback pl.diary = .send r) :
    pl.act wake clock store = ({ pl with wait := .room r }, store) := by
  rw [act, hphase]
  dsimp only
  rw [hdeal]

theorem Acts.one (hready : pl.isReady clock.elapsed = true) :
    pl.Acts wake clock store (pl.act wake clock store).1 (pl.act wake clock store).2 :=
  .step hready (.refl _ _)

theorem Acts.goesOn (h : pl.Acts wake clock store pl' store') : pl.GoesOn store pl' store' := by
  induction h with
  | refl => exact ⟨rfl, rfl, rfl, fun _ => rfl⟩
  | @step pl store pl' store' hready h ih =>
    obtain ⟨hname, hcallback, hsent, hown⟩ := pl.goesOn_act wake clock store
    obtain ⟨hname', hcallback', hsent', hown'⟩ := ih
    exact ⟨hname'.trans hname, hcallback'.trans hcallback, hsent'.trans hsent,
      fun h => (hown' (by rw [hname]; exact h)).trans (hown h)⟩

theorem Acts.course {p : Publisher} {script : Nat → Cue} {c : Ensemble} {i : Nat}
    (hpl : c.players[i]? = some pl) (h : pl.Acts c.wake c.clock c.store pl' store') :
    c.Course p script { c.put i pl' with store := store' } := by
  generalize hwake : c.wake = wake at h
  generalize hclock : c.clock = clock at h
  generalize hstore : c.store = store at h
  induction h generalizing c with
  | refl pl store =>
    obtain ⟨hi, rfl⟩ := List.getElem?_eq_some_iff.1 hpl
    rw [← hstore, Ensemble.put, List.set_getElem_self]
    exact .start
  | @step pl store pl' store' hready h ih =>
    subst hwake hclock hstore
    have hmove : c.Move p script _ := .act hpl hready
    have hnext := ih (c := { c.put i (pl.act c.wake c.clock c.store).1 with
      store := (pl.act c.wake c.clock c.store).2 })
      ((Ensemble.player_put hpl _ i).trans (if_pos rfl)) rfl rfl rfl
    refine hmove.course.trans ?_
    have hput : Ensemble.put { c.put i (pl.act c.wake c.clock c.store).1 with
        store := (pl.act c.wake c.clock c.store).2 } i pl' =
        { c.put i pl' with store := (pl.act c.wake c.clock c.store).2 } := by
      simp only [Ensemble.put, List.set_set]
    rw [hput] at hnext
    exact hnext

end Player

/-! ## a task and a player -/

namespace Task

/-- what the module does when the work of its run is done -/
def deal (t : Task) : Deal :=
  match t.plan.report? with
  | some r => .send r
  | none => .finish t.plan.ending

/-- a task and a player stand at the same point: what the loop did was this, and the player goes on as
the task does -/
structure PlayedBy (t : Task) (store : Option StateStore) (deeds : List RunnerEvent) (pl : Player) :
    Prop where
  runner : pl.runner = t.runner
  callback : pl.callback = t.behaviour.callback
  calls : callsIn pl.diary = t.runs
  deeds : pl.deeds = deeds
  begins : t.runner.phase = .fresh → ∀ now, (t.runner.firstSlot t.saved now).1 =
    (t.runner.firstSlot (loadFrom store t.runner.name) now).1
  since : ∀ started, t.runner.phase = .running started → pl.since = t.since
  deal : ∀ started, t.runner.phase = .running started → t.isSending = false →
    pl.callback pl.diary = t.deal

/-- what the player waits for when the task goes on like this; nobody sleeps for no time -/
def Awaits (elapsed : Nat) (w : Wait) : Next → Prop
  | .again => ∃ due, due ≤ elapsed ∧ w = .time due
  | .over => ∃ due, due ≤ elapsed ∧ w = .time due
  | .sleep ms => 1 ≤ ms ∧ w = .time (elapsed + ms)
  | .send r => w = .room r

def TakenAlong (wake : Nat) (clock : SimClock) (store : Option StateStore) (deeds : List RunnerEvent)
    (pl : Player) (turn : TaskTurn) : Prop :=
  ∃ pl', pl.Acts wake clock store pl' turn.store ∧
    turn.task.PlayedBy turn.store (deeds ++ turn.events.filter RunnerEvent.isDeed) pl' ∧
    Awaits clock.elapsed pl'.wait turn.next

namespace PlayedBy

variable {t : Task} {store : Option StateStore} {deeds : List RunnerEvent} {pl : Player}
  {wake : Nat} {clock : SimClock}

theorem after (h : t.PlayedBy store deeds pl) {turn : Turn}
    (hrest : ∀ started, turn.runner.phase ≠ .running started) (hbegun : turn.runner.phase ≠ .fresh)
    (hquiet : (turn.events.filter RunnerEvent.isDeed).countP RunnerEvent.isCall = 0) (isSending : Bool)
    (since : Nat) :
    Task.PlayedBy { t with runner := turn.runner, isSending } turn.store
      (deeds ++ turn.events.filter RunnerEvent.isDeed) { pl.after turn with since } where
  runner := rfl
  callback := h.callback
  calls := by
    rw [Player.after, callsIn_append, callsIn_deeds, h.calls, hquiet]
    rfl
  deeds := (pl.deeds_after turn).trans (by rw [h.deeds])
  begins hphase := absurd hphase hbegun
  since started hphase := absurd hphase (hrest started)
  deal started hphase _ := absurd hphase (hrest started)

theorem waiting (h : t.PlayedBy store deeds pl) (w : Wait) :
    t.PlayedBy store deeds { pl with wait := w } :=
  ⟨h.runner, h.callback, h.calls, h.deeds, h.begins, h.since, h.deal⟩

/-- a player whose run has just started has counted it, and works as long as the plan says -/
theorem of_call (h : t.PlayedBy store deeds pl) (turn : Turn) {slot : Stamp} {now : Moment}
    {trigger : Trigger} (hevents : turn.events = [.entered .running, .called slot now trigger]) :
    callsIn (pl.after turn).diary = t.runs + 1 ∧
      pl.callback (pl.after turn).diary = .work (t.behaviour t.runs).ms := by
  have hcalls : callsIn (pl.after turn).diary = t.runs + 1 := by
    rw [Player.after, callsIn_append, callsIn_deeds, h.calls, hevents]
    rfl
  have hlast : (pl.after turn).diary.getLast? = some (.deed (.called slot now trigger)) := by
    rw [Player.after, hevents]
    exact List.getLast?_append
  have hdeal := t.behaviour.callback_deed _ hlast
  rw [hcalls, Nat.add_sub_cancel] at hdeal
  exact ⟨hcalls, (congrFun h.callback _).trans hdeal⟩

section
variable (wake) (h : t.PlayedBy store deeds pl) (hwait : ∃ due, due ≤ clock.elapsed ∧ pl.wait = .time due)
include h hwait

theorem isReady (hover : ¬t.runner.IsOver) : pl.isReady clock.elapsed = true :=
  pl.isReady_iff.2 ⟨h.runner ▸ hover, hwait⟩

theorem begun (hphase : t.runner.phase = .fresh) :
    TakenAlong wake clock store deeds pl (t.after (t.runner.begin store clock.now t.saved) .again) := by
  have hdoes := t.runner.begin_does store clock.now t.saved
  have hready := h.isReady hwait (by simp [Runner.IsOver, hphase])
  obtain ⟨hrunner, hevents, hstore⟩ := Runner.begin_congr store (h.begins hphase clock.now)
  have hact : pl.act wake clock store =
      (pl.after (t.runner.begin store clock.now t.saved), (t.runner.begin store clock.now t.saved).store) := by
    rw [Player.act, h.runner, hphase]
    dsimp only
    rw [Player.name, h.runner, Player.after, Player.after, hrunner, hevents, hstore]
  have hacts : pl.Acts wake clock store _ _ := .one hready
  rw [hact] at hacts
  obtain ⟨hrest, hbegun⟩ := Runner.between_runs (hdoes.begun hphase).1
  exact ⟨_, hacts, h.after hrest hbegun (hdoes.uncalled (by simp)) t.isSending pl.since, 0,
    Nat.zero_le _, rfl⟩

theorem finished {started : Moment} (hphase : t.runner.phase = .running started) {ending : RunEnd}
    (hdeal : pl.callback pl.diary = .finish ending) :
    TakenAlong wake clock store deeds pl (t.endRun clock store ending) := by
  have hdoes := t.runner.finish_does store clock.now (clock.elapsed - t.since) ending
  have hready := h.isReady hwait fun hover => hover.not_running started hphase
  have hact : pl.act wake clock store =
      (pl.after (t.runner.finish store clock.now (clock.elapsed - t.since) ending),
        (t.endRun clock store ending).store) := by
    rw [Player.act, h.runner, hphase]
    dsimp only
    rw [hdeal, h.since started hphase]
    rfl
  have hacts : pl.Acts wake clock store _ _ := .one hready
  rw [hact] at hacts
  obtain ⟨hrest, hbegun⟩ := Runner.between_runs ((hdoes.finished hphase).imp_right And.left)
  exact ⟨_, hacts, h.after hrest hbegun (hdoes.uncalled (by simp)) false pl.since, 0,
    Nat.zero_le _, rfl⟩

theorem wentOn {started : Moment} (hphase : t.runner.phase = .running started)
    (hsilent : t.isSending = false) : TakenAlong wake clock store deeds pl (t.goOn clock store) := by
  have hdeal := h.deal started hphase hsilent
  rw [Task.deal] at hdeal
  unfold Task.goOn
  cases hplan : t.plan.report? with
  | none =>
    rw [hplan] at hdeal
    exact h.finished wake hwait hphase hdeal
  | some r =>
    rw [hplan] at hdeal
    have hacts : pl.Acts wake clock store _ _ :=
      .one (h.isReady hwait fun hover => hover.not_running started hphase)
    rw [Player.act_of_send (h.runner ▸ hphase) hdeal] at hacts
    refine ⟨_, hacts, ?_, rfl⟩
    rw [List.filter_nil, List.append_nil]
    exact ⟨h.runner, h.callback, h.calls, h.deeds, h.begins, h.since, fun _ _ h => nomatch h⟩

theorem looked {turn : Turn} (hphase : t.runner.phase = .waiting)
    (hlook : t.runner.look store clock.now = turn)
    (hrest : ∀ started, turn.runner.phase ≠ .running started) (hbegun : turn.runner.phase ≠ .fresh)
    (hquiet : (turn.events.filter RunnerEvent.isDeed).countP RunnerEvent.isCall = 0) :
    ∃ pl', pl.Acts wake clock store pl' turn.store ∧
      Task.PlayedBy { t with runner := turn.runner } turn.store
        (deeds ++ turn.events.filter RunnerEvent.isDeed) pl' ∧
      pl'.wait = if turn.runner.phase = .waiting then
        .time (clock.elapsed + turn.runner.pauseMs clock.now wake) else .time 0 := by
  have hready := h.isReady hwait (by simp [Runner.IsOver, hphase])
  have hacts : pl.Acts wake clock store _ _ := .one hready
  have hplayed := h.after hrest hbegun hquiet t.isSending
  have hact : pl.act wake clock store =
      if turn.runner.phase = .waiting then
        ({ pl.after turn with wait := .time (clock.elapsed + turn.runner.pauseMs clock.now wake) },
          turn.store)
      else ({ pl.after turn with since := clock.elapsed }, turn.store) := by
    rw [Player.act, h.runner, hphase]
    dsimp only
    rw [hlook]
    cases turn.runner.phase <;> rfl
  rw [hact] at hacts
  split_ifs at hacts ⊢ with hphase'
  · exact ⟨_, hacts, (hplayed pl.since).waiting _, rfl⟩
  · exact ⟨_, hacts, hplayed clock.elapsed, rfl⟩

theorem called (hphase : t.runner.phase = .waiting)
    (hstop : t.runner.stopping = false) (hdue : t.runner.slot.isAfter clock.now = false) :
    TakenAlong wake clock store deeds pl
      ⟨({ t with runner := t.runner.calling clock.now }.startRun clock).1, store,
        [.entered .running, .called t.runner.slot clock.now t.runner.trigger],
        ({ t with runner := t.runner.calling clock.now }.startRun clock).2⟩ := by
  have hready := h.isReady hwait (by simp [Runner.IsOver, hphase])
  set turn : Turn := ⟨t.runner.calling clock.now, store,
    [.entered .running, .called t.runner.slot clock.now t.runner.trigger]⟩
  set begun : Player := { pl.after turn with since := clock.elapsed }
  obtain ⟨hcalls, hwork⟩ := h.of_call turn rfl
  have hact : pl.act wake clock store = (begun, store) := by
    rw [Player.act, h.runner, hphase]
    dsimp only
    rw [Runner.look_of_due hphase hstop hdue]
    rfl
  have hbegunReady : begun.isReady clock.elapsed = true :=
    begun.isReady_iff.2 ⟨fun hover => hover.not_running clock.now rfl, 0, Nat.zero_le _, rfl⟩
  have hacts : pl.Acts wake clock store (begun.act wake clock store).1 (begun.act wake clock store).2 :=
    .step hready (by rw [hact]; exact .one hbegunReady)
  rw [Player.act_of_work rfl hwork] at hacts
  refine ⟨_, hacts, ?_, ?_⟩
  · exact {
      runner := rfl
      callback := h.callback
      calls := (callsIn_append _ _).trans hcalls
      deeds := by
        rw [← h.deeds]
        refine (List.filterMap_append ..).trans ((List.append_nil _).trans ?_)
        exact Player.deeds_after pl turn
      begins := fun h => Phase.noConfusion h
      since := fun _ _ => rfl
      deal := fun _ _ _ => by
        have hdeal := t.behaviour.callback_worked begun.diary (t.behaviour t.runs).ms
        rw [hcalls] at hdeal
        exact (congrFun h.callback _).trans hdeal }
  · show Awaits clock.elapsed _ (if (t.behaviour t.runs).ms = 0 then _ else _)
    split_ifs with hms
    · rw [hms]
      exact ⟨_, le_rfl, rfl⟩
    · exact ⟨Nat.one_le_iff_ne_zero.2 hms, rfl⟩

theorem waited (hphase : t.runner.phase = .waiting) :
    TakenAlong wake clock store deeds pl (t.turn wake clock store) := by
  rw [Task.turn, hphase]
  dsimp only
  cases hstop : t.runner.stopping with
  | true =>
    have hlook : t.runner.look store clock.now = _ := Runner.look_of_stopping hphase hstop
    obtain ⟨pl', hacts, hplayed, hwait'⟩ := h.looked wake hwait hphase hlook
      (fun _ => nofun) nofun rfl
    rw [hlook]
    exact ⟨pl', hacts, hplayed, 0, Nat.zero_le _, hwait'⟩
  | false =>
    cases hdue : t.runner.slot.isAfter clock.now with
    | true =>
      have hlook : t.runner.look store clock.now = _ := Runner.look_of_early hphase hstop hdue
      obtain ⟨pl', hacts, hplayed, hwait'⟩ := h.looked wake hwait hphase hlook
        (fun _ h => nomatch hphase.symm.trans h) (fun h => nomatch hphase.symm.trans h) rfl
      rw [if_pos hphase] at hwait'
      rw [hlook]
      dsimp only
      rw [hphase]
      exact ⟨pl', hacts, hplayed, le_max_left _ _, hwait'⟩
    | false =>
      rw [Runner.look_of_due hphase hstop hdue]
      exact h.called wake hwait hphase hstop hdue

theorem turn (hsilent : t.isSending = false) :
    TakenAlong wake clock store deeds pl (t.turn wake clock store) := by
  have hover : TakenAlong wake clock store deeds pl ⟨t, store, [], .over⟩ :=
    ⟨pl, .refl _ _, by rw [List.filter_nil, List.append_nil]; exact h, hwait⟩
  cases hphase : t.runner.phase with
  | waiting => exact h.waited wake hwait hphase
  | fresh =>
    rw [Task.turn, hphase]
    exact h.begun wake hwait hphase
  | running started =>
    rw [Task.turn, hphase]
    exact h.wentOn wake hwait hphase hsilent
  | stopped =>
    rw [Task.turn, hphase]
    exact hover
  | brokenDown =>
    rw [Task.turn, hphase]
    exact hover

end

theorem answer (wake : Nat) (clock : SimClock) (h : t.PlayedBy store deeds pl) {started : Moment}
    (hphase : t.runner.phase = .running started) (r : Report) :
    TakenAlong wake clock store deeds (pl.hear r .accepted) (t.answer clock store true) := by
  have hdeal : (pl.hear r .accepted).callback (pl.hear r .accepted).diary =
      .finish (t.plan.endingAfter true) := by
    refine (congrFun h.callback _).trans ((t.behaviour.callback_sent pl.diary r true).trans ?_)
    rw [h.calls]
    rfl
  have hheard : t.sending.PlayedBy store deeds (pl.hear r .accepted) := {
    runner := h.runner
    callback := h.callback
    calls := (callsIn_append _ _).trans h.calls
    deeds := (List.filterMap_append ..).trans ((List.append_nil _).trans h.deeds)
    begins := h.begins
    since := h.since
    deal := fun _ _ h => nomatch h }
  exact hheard.finished wake ⟨0, Nat.zero_le _, rfl⟩ hphase hdeal

end PlayedBy

end Task

end Rota
